import Mathlib

namespace Pinyon
namespace Library

universe u

/-!
# Linked nodes

Each node has a link to another one or to none.  A path goes through a list of nodes
from link to link.  Putting a node in and taking one out is proved once for a path in
one direction; a list that is linked both ways is a path and a path of its reverse,
and both edits are the same for the two.
-/

variable {Node : Type u}

/-- From `start` the links lead through the nodes of a list, and on to `stop`. -/
def Path (link : Node -> Option Node) : Option Node -> List Node -> Option Node -> Prop
  | start, [], stop => start = stop
  | start, node :: rest, stop => start = some node ∧ Path link (link node) rest stop

/-- The links after a node was put in between two parts of a path. -/
structure LinkedIn (link linkAfter : Node -> Option Node) (before : List Node) (new : Node)
    (behind : List Node) : Prop where
  toNew : forall node, before.getLast? = some node -> linkAfter node = some new
  fromNew : linkAfter new = behind.head?
  others : forall other, other ∈ before ++ behind -> before.getLast? ≠ some other ->
    linkAfter other = link other

/-- The links after a node between two parts of a path was taken out. -/
structure LinkedOut (link linkAfter : Node -> Option Node) (before behind : List Node) :
    Prop where
  around : forall node, before.getLast? = some node -> linkAfter node = behind.head?
  others : forall other, other ∈ before ++ behind -> before.getLast? ≠ some other ->
    linkAfter other = link other

/-- What is not on a path is not at the seam of its parts. -/
theorem ne_seam {before behind : List Node} {other : Node} (outside : other ∉ before ++ behind) :
    before.getLast? ≠ some other ∧ behind.head? ≠ some other := by
  constructor
  · intro last
    exact outside (List.mem_append_left _ (List.mem_of_getLast? last))
  · intro first
    exact outside (List.mem_append_right _ (List.mem_of_head? first))

/-- The new node was stored in the last node before it and got a link of its own. -/
theorem LinkedIn.of_links [DecidableEq Node] {link linkAfter : Node -> Option Node}
    {before behind : List Node} {new : Node} (absent : new ∉ before ++ behind)
    (links : forall other, linkAfter other =
      if before.getLast? = some other then some new
      else if other = new then behind.head? else link other) :
    LinkedIn link linkAfter before new behind where
  toNew := by
    intro node last
    rw [links, if_pos last]
  fromNew := by
    rw [links, if_neg (ne_seam absent).1, if_pos rfl]
  others := by
    intro other member notLast
    have different : other ≠ new := fun same => absent (same ▸ member)
    rw [links, if_neg notLast, if_neg different]

theorem LinkedOut.of_links [DecidableEq Node] {link linkAfter : Node -> Option Node}
    {before behind : List Node} {gone : Node} (absent : gone ∉ before ++ behind)
    (links : forall other, linkAfter other =
      if before.getLast? = some other then behind.head?
      else if other = gone then none else link other) :
    LinkedOut link linkAfter before behind where
  around := by
    intro node last
    rw [links, if_pos last]
  others := by
    intro other member notLast
    have different : other ≠ gone := fun same => absent (same ▸ member)
    rw [links, if_neg notLast, if_neg different]

theorem getLast?_cons_ne {first other : Node} {rest : List Node} (different : other ≠ first)
    (notLast : rest.getLast? ≠ some other) : (first :: rest).getLast? ≠ some other := by
  cases rest with
  | nil =>
      intro last
      exact different (Option.some.inj last).symm
  | cons second rest =>
      rw [List.getLast?_cons_cons]
      exact notLast

theorem getLast?_ne_first {first second : Node} {rest : List Node}
    (absent : first ∉ second :: rest) : (first :: second :: rest).getLast? ≠ some first := by
  rw [List.getLast?_cons_cons]
  intro last
  exact absent (List.mem_of_getLast? last)

theorem getLast?_cons_some {first node : Node} {rest : List Node}
    (last : rest.getLast? = some node) : (first :: rest).getLast? = some node := by
  rw [List.getLast?_cons, last]
  rfl

namespace Path

variable {link linkAfter : Node -> Option Node} {start stop : Option Node}
variable {nodes before behind : List Node} {node new gone : Node}

theorem start_eq (path : Path link start nodes stop) : start = nodes.head?.or stop := by
  cases nodes with
  | nil => exact path
  | cons node rest => exact path.1

theorem start_eq_head (path : Path link start nodes none) : start = nodes.head? := by
  rw [path.start_eq, Option.or_none]

theorem congr (path : Path link start nodes stop)
    (same : forall node, node ∈ nodes -> linkAfter node = link node) :
    Path linkAfter start nodes stop := by
  induction nodes generalizing start with
  | nil => exact path
  | cons node rest inductionHypothesis =>
      refine ⟨path.1, ?_⟩
      rw [same node List.mem_cons_self]
      exact inductionHypothesis path.2 fun other member =>
        same other (List.mem_cons_of_mem _ member)

/-- The part of a path from a node on. -/
theorem drop (path : Path link start (before ++ behind) none) :
    Path link behind.head? behind none := by
  induction before generalizing start with
  | nil =>
      rw [List.nil_append] at path
      rw [← path.start_eq_head]
      exact path
  | cons first rest inductionHypothesis => exact inductionHypothesis path.2

theorem link_eq (path : Path link start (before ++ node :: behind) none) :
    link node = behind.head? := by
  have onward : Path link (some node) (node :: behind) none := path.drop
  exact onward.2.start_eq_head

/-- An edit behind the second node leaves the link of the first alone. -/
theorem kept_first {first second : Node} {rest : List Node}
    (path : Path link (link first) (second :: rest ++ behind) none)
    (absent : first ∉ second :: rest)
    (kept : (first :: second :: rest).getLast? ≠ some first -> linkAfter first = link first) :
    linkAfter first = some second := by
  rw [kept (getLast?_ne_first absent), path.start_eq_head]
  rfl

/-! ## Putting a node in -/

theorem linkedIn (path : Path link start (before ++ behind) none)
    (once : (before ++ behind).Nodup) (edit : LinkedIn link linkAfter before new behind) :
    Path linkAfter (before ++ [new]).head? (before ++ new :: behind) none := by
  induction before generalizing start with
  | nil =>
      refine ⟨rfl, ?_⟩
      rw [List.nil_append] at path
      rw [edit.fromNew, ← path.start_eq_head]
      apply path.congr
      intro other member
      apply edit.others other member
      intro last
      cases last
  | cons first rest inductionHypothesis =>
      rw [List.cons_append, List.nodup_cons] at once
      have onward : linkAfter first = (rest ++ [new]).head? := by
        cases rest with
        | nil => exact edit.toNew first rfl
        | cons second rest =>
            exact path.2.kept_first (fun member => once.1 (List.mem_append_left _ member))
              (edit.others first List.mem_cons_self)
      refine ⟨rfl, ?_⟩
      rw [onward]
      apply inductionHypothesis path.2 once.2
      constructor
      case toNew =>
          intro node last
          exact edit.toNew node (getLast?_cons_some last)
      case fromNew => exact edit.fromNew
      case others =>
          intro other member notLast
          apply edit.others other (List.mem_cons_of_mem _ member)
          apply getLast?_cons_ne _ notLast
          rintro rfl
          exact once.1 member

/-! ## Taking a node out -/

theorem linkedOut (path : Path link start (before ++ gone :: behind) none)
    (once : (before ++ gone :: behind).Nodup) (edit : LinkedOut link linkAfter before behind) :
    Path linkAfter (before ++ behind).head? (before ++ behind) none := by
  induction before generalizing start with
  | nil =>
      rw [List.nil_append] at path
      rw [List.nil_append, ← path.2.start_eq_head]
      apply path.2.congr
      intro other member
      apply edit.others other member
      intro last
      cases last
  | cons first rest inductionHypothesis =>
      rw [List.cons_append, List.nodup_cons] at once
      have onward : linkAfter first = (rest ++ behind).head? := by
        cases rest with
        | nil => exact edit.around first rfl
        | cons second rest =>
            exact path.2.kept_first (fun member => once.1 (List.mem_append_left _ member))
              (edit.others first List.mem_cons_self)
      refine ⟨rfl, ?_⟩
      rw [onward]
      apply inductionHypothesis path.2 once.2
      constructor
      case around =>
          intro node last
          exact edit.around node (getLast?_cons_some last)
      case others =>
          intro other member notLast
          apply edit.others other (List.mem_cons_of_mem _ member)
          apply getLast?_cons_ne _ notLast
          rintro rfl
          apply once.1
          rcases List.mem_append.mp member with left | right
          · exact List.mem_append_left _ left
          · exact List.mem_append_right _ (List.mem_cons_of_mem _ right)

end Path

/-! ## Both ways -/

/-- A list that is linked both ways, with its two ends. -/
structure DoublyLinked (next prev : Node -> Option Node) (head tail : Option Node)
    (nodes : List Node) : Prop where
  forward : Path next head nodes none
  backward : Path prev tail nodes.reverse none
  once : nodes.Nodup

namespace DoublyLinked

variable {next prev nextAfter prevAfter : Node -> Option Node} {head tail : Option Node}
variable {nodes before behind : List Node} {node new gone : Node}

theorem empty (next prev : Node -> Option Node) : DoublyLinked next prev none none [] :=
  ⟨rfl, rfl, List.nodup_nil⟩

theorem head_eq (linked : DoublyLinked next prev head tail nodes) : head = nodes.head? :=
  linked.forward.start_eq_head

theorem tail_eq (linked : DoublyLinked next prev head tail nodes) : tail = nodes.getLast? := by
  rw [linked.backward.start_eq_head, List.head?_reverse]

theorem next_eq (linked : DoublyLinked next prev head tail (before ++ node :: behind)) :
    next node = behind.head? :=
  linked.forward.link_eq

theorem prev_eq (linked : DoublyLinked next prev head tail (before ++ node :: behind)) :
    prev node = before.getLast? := by
  have path := linked.backward
  rw [List.reverse_append, List.reverse_cons, List.append_assoc, List.singleton_append] at path
  rw [path.link_eq, List.head?_reverse]

theorem congr (linked : DoublyLinked next prev head tail nodes)
    (same : forall node, node ∈ nodes -> nextAfter node = next node ∧ prevAfter node = prev node) :
    DoublyLinked nextAfter prevAfter head tail nodes where
  forward := linked.forward.congr fun node member => (same node member).1
  backward := linked.backward.congr fun node member => (same node (List.mem_reverse.mp member)).2
  once := linked.once

theorem linkedIn (linked : DoublyLinked next prev head tail (before ++ behind))
    (fresh : new ∉ before ++ behind) (nextEdit : LinkedIn next nextAfter before new behind)
    (prevEdit : LinkedIn prev prevAfter behind.reverse new before.reverse) :
    DoublyLinked nextAfter prevAfter (before ++ [new]).head? (new :: behind).getLast?
      (before ++ new :: behind) := by
  constructor
  case forward => exact linked.forward.linkedIn linked.once nextEdit
  case backward =>
      have path := linked.backward
      have once := List.nodup_reverse.mpr linked.once
      rw [List.reverse_append] at path once
      have edited := path.linkedIn once prevEdit
      rw [← List.reverse_cons, List.head?_reverse] at edited
      rw [List.reverse_append, List.reverse_cons, List.append_assoc]
      exact edited
  case once => exact List.nodup_middle.mpr (List.nodup_cons.mpr ⟨fresh, linked.once⟩)

theorem linkedOut (linked : DoublyLinked next prev head tail (before ++ gone :: behind))
    (nextEdit : LinkedOut next nextAfter before behind)
    (prevEdit : LinkedOut prev prevAfter behind.reverse before.reverse) :
    DoublyLinked nextAfter prevAfter (before ++ behind).head? (before ++ behind).getLast?
      (before ++ behind) := by
  constructor
  case forward => exact linked.forward.linkedOut linked.once nextEdit
  case backward =>
      have path := linked.backward
      have once := List.nodup_reverse.mpr linked.once
      rw [List.reverse_append, List.reverse_cons, List.append_assoc, List.singleton_append] at path once
      have edited := path.linkedOut once prevEdit
      rw [← List.reverse_append, List.head?_reverse] at edited
      exact edited
  case once => exact (List.nodup_cons.mp (List.nodup_middle.mp linked.once)).2

/-! ## The edits as a list does them -/

/-- The tail is the new node, or what it was. -/
theorem tail_of_inserted (before behind : List Node) (new : Node) :
    (if behind.head? = none then some new else (before ++ behind).getLast?) =
      (new :: behind).getLast? := by
  cases behind with
  | nil => rfl
  | cons following rest =>
      rw [List.head?_cons, if_neg (Option.some_ne_none following), List.getLast?_cons_cons,
        List.getLast?_append_of_ne_nil _ (List.cons_ne_nil following rest)]

/-- A node is put in behind another one. -/
theorem insert [DecidableEq Node] (linked : DoublyLinked next prev head tail (before ++ behind))
    (absent : new ∉ before ++ behind) (last : before.getLast? = some node)
    (nextIs : forall other, nextAfter other =
      if other = node then some new else if other = new then behind.head? else next other)
    (prevIs : forall other, prevAfter other =
      if behind.head? = some other then some new
      else if other = new then some node else prev other) :
    DoublyLinked nextAfter prevAfter head (if behind.head? = none then some new else tail)
      (before ++ new :: behind) := by
  have nonempty : before ≠ [] := List.ne_nil_of_mem (List.mem_of_getLast? last)
  have nextEdit : LinkedIn next nextAfter before new behind := by
    apply LinkedIn.of_links absent
    intro other
    rw [nextIs, last]
    simp only [Option.some.injEq, eq_comm]
  have prevEdit : LinkedIn prev prevAfter behind.reverse new before.reverse := by
    apply LinkedIn.of_links
    · rw [← List.reverse_append, List.mem_reverse]
      exact absent
    · intro other
      rw [prevIs, List.getLast?_reverse, List.head?_reverse, last]
  have edited := linked.linkedIn absent nextEdit prevEdit
  rw [List.head?_append_of_ne_nil _ nonempty] at edited
  rw [linked.head_eq, linked.tail_eq, tail_of_inserted, List.head?_append_of_ne_nil _ nonempty]
  exact edited

/-- The head moves on when it was the node. -/
theorem head_of_removed [DecidableEq Node] (once : (before ++ gone :: behind).Nodup) :
    (if some gone = (before ++ gone :: behind).head? then behind.head?
      else (before ++ gone :: behind).head?) = (before ++ behind).head? := by
  cases before with
  | nil => exact if_pos rfl
  | cons first rest =>
      apply if_neg
      intro same
      have equal : gone = first := Option.some.inj same
      rw [List.cons_append, List.nodup_cons, ← equal] at once
      exact once.1 (List.mem_append_right _ List.mem_cons_self)

/-- The tail moves back when it was the node. -/
theorem tail_of_removed [DecidableEq Node] (once : (before ++ gone :: behind).Nodup) :
    (if some gone = (before ++ gone :: behind).getLast? then
        if before.getLast? = none then behind.head? else before.getLast?
      else (before ++ gone :: behind).getLast?) = (before ++ behind).getLast? := by
  cases behind with
  | nil =>
      rw [List.getLast?_append_of_ne_nil _ (List.cons_ne_nil gone []), List.getLast?_singleton,
        List.append_nil]
      by_cases first : before.getLast? = none
      · rw [if_pos rfl, if_pos first, first]
        rfl
      · rw [if_pos rfl, if_neg first]
  | cons following rest =>
      rw [List.getLast?_append_of_ne_nil _ (List.cons_ne_nil gone _), List.getLast?_cons_cons,
        List.getLast?_append_of_ne_nil _ (List.cons_ne_nil following rest)]
      apply if_neg
      intro last
      have later := (List.nodup_append.mp once).2.1
      exact (List.nodup_cons.mp later).1 (List.mem_of_getLast? last.symm)

/-- A node is taken out. -/
theorem remove [DecidableEq Node]
    (linked : DoublyLinked next prev head tail (before ++ gone :: behind))
    (nextIs : forall other, nextAfter other =
      if prev gone = some other then next gone else if other = gone then none else next other)
    (prevIs : forall other, prevAfter other =
      if next gone = some other then prev gone else if other = gone then none else prev other) :
    DoublyLinked nextAfter prevAfter (if some gone = head then next gone else head)
      (if some gone = tail then if prev gone = none then next gone else prev gone else tail)
      (before ++ behind) := by
  have absent : gone ∉ before ++ behind :=
    (List.nodup_cons.mp (List.nodup_middle.mp linked.once)).1
  rw [linked.next_eq, linked.prev_eq] at nextIs prevIs ⊢
  have nextEdit := LinkedOut.of_links absent nextIs
  have prevEdit : LinkedOut prev prevAfter behind.reverse before.reverse := by
    apply LinkedOut.of_links
    · rw [← List.reverse_append, List.mem_reverse]
      exact absent
    · intro other
      rw [prevIs, List.getLast?_reverse, List.head?_reverse]
  rw [linked.head_eq, linked.tail_eq, head_of_removed linked.once, tail_of_removed linked.once]
  exact linked.linkedOut nextEdit prevEdit

end DoublyLinked
end Library
end Pinyon
