import Mathlib
import Pinyon.Library.History
import Pinyon.Library.LinkedPath
import Pinyon.Pine.LowerBound

namespace Pinyon
namespace Pine

open Library

/-!
# The linked list

`ManualLinkedList` keeps its two ends and its length; the links are in the nodes,
whose storage is not the list's.  A removal leaves the links between the neighbours
to the destructor of the node.  What follows a null pointer is an error, `none`.
-/

/-- Where a node can be: any address but null. -/
structure NodeAddress (target : Target) where
  word : Nat
  nonnull : word ≠ 0
  isWord : word < target.wordLimit
deriving DecidableEq

/-- `Node*`, of which `none` is the null pointer. -/
abbrev NodePtr (target : Target) : Type :=
  Option (NodeAddress target)

/-- `ManualLinkedList::Node`. -/
structure ListNode (target : Target) (Content : Type) where
  next : NodePtr target
  prev : NodePtr target
  contents : Content

/-! ## The storage of nodes -/

/-- What lies at each address, as a node. -/
abbrev NodeMemory (target : Target) (Content : Type) : Type :=
  NodeAddress target -> ListNode target Content

namespace NodeMemory

variable {target : Target} {Content : Type}

def setNext (memory : NodeMemory target Content) (node : NodeAddress target)
    (next : NodePtr target) : NodeMemory target Content :=
  Function.update memory node { memory node with next := next }

def setPrev (memory : NodeMemory target Content) (node : NodeAddress target)
    (prev : NodePtr target) : NodeMemory target Content :=
  Function.update memory node { memory node with prev := prev }

/-- `if (ptr) ptr->m_next = next`. -/
def setNextIf (memory : NodeMemory target Content) (ptr next : NodePtr target) :
    NodeMemory target Content :=
  match ptr with
  | some node => memory.setNext node next
  | none => memory

/-- `if (ptr) ptr->m_prev = prev`. -/
def setPrevIf (memory : NodeMemory target Content) (ptr prev : NodePtr target) :
    NodeMemory target Content :=
  match ptr with
  | some node => memory.setPrev node prev
  | none => memory

def setContents (memory : NodeMemory target Content) (node : NodeAddress target)
    (contents : Content) : NodeMemory target Content :=
  Function.update memory node { memory node with contents := contents }

/-- `Node(content)`. -/
def construct (memory : NodeMemory target Content) (node : NodeAddress target)
    (contents : Content) : NodeMemory target Content :=
  Function.update memory node ⟨none, none, contents⟩

/-- `~Node`.  The destructor of the contents comes last; it leaves something in
their place. -/
def destruct (destroy : Content -> Content) (memory : NodeMemory target Content)
    (node : NodeAddress target) : NodeMemory target Content :=
  let prev := (memory node).prev
  let memory := memory.setPrev node none
  let next := (memory node).next
  let memory := memory.setNext node none
  let memory := memory.setNextIf prev next
  let memory := memory.setPrevIf next prev
  memory.setContents node (destroy (memory node).contents)

variable (memory : NodeMemory target Content) (node other : NodeAddress target)
variable (ptr value : NodePtr target) (contents : Content)

@[simp]
theorem setNext_next : (memory.setNext node value other).next =
    if other = node then value else (memory other).next := by
  rw [setNext, Function.update_apply]
  split_ifs with same
  · rfl
  · rfl

@[simp]
theorem setNext_prev : (memory.setNext node value other).prev = (memory other).prev := by
  rw [setNext, Function.update_apply]
  split_ifs with same
  · rw [same]
  · rfl

@[simp]
theorem setPrev_prev : (memory.setPrev node value other).prev =
    if other = node then value else (memory other).prev := by
  rw [setPrev, Function.update_apply]
  split_ifs with same
  · rfl
  · rfl

@[simp]
theorem setPrev_next : (memory.setPrev node value other).next = (memory other).next := by
  rw [setPrev, Function.update_apply]
  split_ifs with same
  · rw [same]
  · rfl

@[simp]
theorem setNextIf_next : (memory.setNextIf ptr value other).next =
    if ptr = some other then value else (memory other).next := by
  cases ptr with
  | none => rw [setNextIf, if_neg (Option.some_ne_none other).symm]
  | some node => simp only [setNextIf, setNext_next, Option.some.injEq, eq_comm]

@[simp]
theorem setNextIf_prev : (memory.setNextIf ptr value other).prev = (memory other).prev := by
  cases ptr with
  | none => rfl
  | some node => exact setNext_prev memory node other value

@[simp]
theorem setPrevIf_prev : (memory.setPrevIf ptr value other).prev =
    if ptr = some other then value else (memory other).prev := by
  cases ptr with
  | none => rw [setPrevIf, if_neg (Option.some_ne_none other).symm]
  | some node => simp only [setPrevIf, setPrev_prev, Option.some.injEq, eq_comm]

@[simp]
theorem setPrevIf_next : (memory.setPrevIf ptr value other).next = (memory other).next := by
  cases ptr with
  | none => rfl
  | some node => exact setPrev_next memory node other value

@[simp]
theorem setContents_next : (memory.setContents node contents other).next = (memory other).next := by
  rw [setContents, Function.update_apply]
  split_ifs with same
  · rw [same]
  · rfl

@[simp]
theorem setContents_prev : (memory.setContents node contents other).prev = (memory other).prev := by
  rw [setContents, Function.update_apply]
  split_ifs with same
  · rw [same]
  · rfl

/-- The destructor leads past the node, and the node nowhere. -/
theorem destruct_next (destroy : Content -> Content) :
    (memory.destruct destroy node other).next =
      if (memory node).prev = some other then (memory node).next
      else if other = node then none else (memory other).next := by
  simp [destruct]

theorem destruct_prev (destroy : Content -> Content) :
    (memory.destruct destroy node other).prev =
      if (memory node).next = some other then (memory node).prev
      else if other = node then none else (memory other).prev := by
  simp [destruct]

end NodeMemory

/-! ## The list -/

structure ManualLinkedList (target : Target) where
  head : NodePtr target := none
  tail : NodePtr target := none
  length : Nat := 0

/-- A list with the storage of the nodes there are. -/
structure ListState (target : Target) (Content : Type) where
  list : ManualLinkedList target
  memory : NodeMemory target Content

namespace ListState

variable {target : Target} {Content : Type}

def insertAfter (state : ListState target Content) (afterNodePtr : NodePtr target)
    (newNode : NodeAddress target) : Option (ListState target Content) :=
  let length := (state.list.length + 1) % target.wordLimit
  let afterNodePtr := if afterNodePtr = none then state.list.tail else afterNodePtr
  if state.list.head = none then
    some ⟨⟨some newNode, some newNode, length⟩, state.memory⟩
  else do
    let memory := state.memory.setPrev newNode afterNodePtr
    let afterNode <- afterNodePtr
    let next := (memory afterNode).next
    let memory := memory.setNext afterNode (some newNode)
    match next with
    | some next =>
        let memory := memory.setNext newNode (some next)
        let memory := memory.setPrev next (some newNode)
        return ⟨{ state.list with length }, memory⟩
    | none => return ⟨{ state.list with tail := some newNode, length }, memory⟩

def append (state : ListState target Content) (newNode : NodeAddress target) :
    Option (ListState target Content) :=
  state.insertAfter state.list.tail newNode

def remove (destroy : Content -> Content) (state : ListState target Content)
    (nodePtr : NodePtr target) : Option (ListState target Content) := do
  let length := (state.list.length + (target.wordLimit - 1)) % target.wordLimit
  let node <- nodePtr
  let prev := (state.memory node).prev
  let next := (state.memory node).next
  let memory := state.memory.destruct destroy node
  let head := if nodePtr = state.list.head then next else state.list.head
  let tail :=
    if nodePtr = state.list.tail then if prev = none then next else prev else state.list.tail
  return ⟨{ head, tail, length }, memory⟩

end ListState

/-! ## The iterators -/

/-- `PtrIter` of a list.  The end is the last node and a flag. -/
structure NodeIter (target : Target) where
  ptr : NodePtr target
  atEnd : Bool
deriving DecidableEq

namespace NodeIter

variable {target : Target} {Content : Type}

def increment (memory : NodeMemory target Content) (it : NodeIter target) :
    Option (NodeIter target) := do
  let node <- it.ptr
  match (memory node).next with
  | some next => return { it with ptr := some next }
  | none => return { it with atEnd := true }

def decrement (memory : NodeMemory target Content) (it : NodeIter target) :
    Option (NodeIter target) :=
  if it.atEnd then some { it with atEnd := false }
  else do
    let node <- it.ptr
    return { it with ptr := (memory node).prev }

def begin (list : ManualLinkedList target) : NodeIter target :=
  ⟨list.head, list.tail.isNone⟩

def end_ (list : ManualLinkedList target) : NodeIter target :=
  ⟨list.tail, true⟩

/-- `while (it != end) { *it; ++it; }`, with the nodes it comes to.  `none` is also a
loop that takes more turns. -/
def forwardLoop (memory : NodeMemory target Content) (end_ : NodeIter target) :
    Nat -> NodeIter target -> Option (List (NodeAddress target))
  | 0, _ => none
  | turns + 1, it =>
      if it = end_ then some []
      else do
        let node <- it.ptr
        let it <- it.increment memory
        let rest <- forwardLoop memory end_ turns it
        return node :: rest

/-- `while (it != begin) { --it; *it; }`, with the nodes it comes to. -/
def backwardLoop (memory : NodeMemory target Content) (begin : NodeIter target) :
    Nat -> NodeIter target -> Option (List (NodeAddress target))
  | 0, _ => none
  | turns + 1, it =>
      if it = begin then some []
      else do
        let it <- it.decrement memory
        let node <- it.ptr
        let rest <- backwardLoop memory begin turns it
        return node :: rest

end NodeIter

end Pine
end Pinyon
