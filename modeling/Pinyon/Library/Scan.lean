import Mathlib

namespace Pinyon
namespace Library

universe u v

/-!
# Scanning a table

A loop goes through the entries of a table from an index on and takes the first from
which something can be picked.  It ends at one index, which it tests for equality: a
scan that starts behind that index does not meet it, and leaves the table.
-/

/-- The indices that a scan reads, in order, and what it picks if anything.  The
result is missing when the last index lies outside of the table. -/
structure Scan (Picked : Type v) where
  indices : List Nat
  result : Option (Option Picked)
deriving DecidableEq, Repr

variable {Entry : Type u} {Picked : Type v}

def scan (stop : Nat) (table : List Entry) (pick : Entry -> Option Picked) (index : Nat) :
    Scan Picked :=
  if index = stop then ⟨[], some none⟩
  else if inside : index < table.length then
    match pick table[index] with
    | some picked => ⟨[index], some (some picked)⟩
    | none =>
        let rest := scan stop table pick (index + 1)
        ⟨index :: rest.indices, rest.result⟩
  else ⟨[index], none⟩
termination_by table.length - index

namespace Scan

variable {stop index : Nat} {table : List Entry} {pick : Entry -> Option Picked}

theorem of_stop : scan index table pick index = ⟨[], some none⟩ := by
  rw [scan, if_pos rfl]

/-- The first index is outside already. -/
theorem of_beyond (beyond : table.length ≤ index) (other : index ≠ stop) :
    scan stop table pick index = ⟨[index], none⟩ := by
  rw [scan, if_neg other, dif_neg (Nat.not_lt.mpr beyond)]

/-- A scan that starts within a table that ends where the scan does stays inside. -/
theorem indices_lt (fits : table.length = stop) (within : index ≤ stop) :
    forall read, read ∈ (scan stop table pick index).indices -> read < stop := by
  fun_induction scan stop table pick index with
  | case1 => simp
  | case2 index other inside picked found =>
      intro read member
      rw [List.mem_singleton.mp member, ← fits]
      exact inside
  | case3 index other inside nothing rest inductionHypothesis =>
      intro read member
      rcases List.mem_cons.mp member with rfl | later
      · exact fits ▸ inside
      · exact inductionHypothesis (fits ▸ inside) read later
  | case4 index other outside => omega

/-- It picks from the first entry that has anything. -/
theorem result_eq (fits : table.length = stop) (within : index ≤ stop) :
    (scan stop table pick index).result = some ((table.drop index).findSome? pick) := by
  fun_induction scan stop table pick index with
  | case1 => rw [← fits, List.drop_length, List.findSome?_nil]
  | case2 index other inside picked found =>
      rw [List.drop_eq_getElem_cons inside, List.findSome?_cons, found]
  | case3 index other inside nothing rest inductionHypothesis =>
      rw [List.drop_eq_getElem_cons inside, List.findSome?_cons, nothing]
      exact inductionHypothesis (fits ▸ inside)
  | case4 index other outside => omega

theorem result_isSome_iff (fits : table.length = stop) :
    (scan stop table pick index).result.isSome = true <-> index ≤ stop := by
  constructor
  · intro ends
    by_contra beyond
    rw [of_beyond (by omega) (by omega)] at ends
    cases ends
  · intro within
    rw [result_eq fits within]
    rfl

end Scan
end Library
end Pinyon
