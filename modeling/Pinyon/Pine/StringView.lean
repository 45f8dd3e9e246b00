import Pinyon.Pine.StringCompare

namespace Pinyon
namespace Pine

/-!
# Comparing views

A view has a length of its own, but two views of one length are compared by `strcmp`,
which goes by what is in memory instead.
-/

/-- `StringView`: the bytes at and behind `m_chars`, and `m_length`. -/
structure StringView where
  chars : List UInt8
  length : Nat
  within_ : length ≤ chars.length

/-- What `operator==` returns, and the places of both views it has read. -/
structure ViewComparison where
  same : Bool
  reads : List Nat

namespace StringView

/-- `operator==`. -/
def eq (first second : StringView) : Option ViewComparison :=
  if first.length ≠ second.length then some ⟨false, []⟩
  else do
    let comparison <- strcmp first.chars second.chars
    return ⟨comparison.order == 0, comparison.reads⟩

/-- The characters of a view. -/
def viewed (view : StringView) : List UInt8 :=
  view.chars.take view.length

/-- The view of a NUL-terminated string. -/
def ofCString (string : CString) (behind : List UInt8) : StringView where
  chars := string.chars ++ 0 :: behind
  length := string.strlen
  within_ := by
    rw [List.length_append]
    exact Nat.le_add_right _ _

/-- `operator==` compares the characters of two views, and looks at no others. -/
def ComparesChars (first second : StringView) : Prop :=
  Exists fun comparison => eq first second = some comparison ∧
    (comparison.same = true <-> first.length = second.length ∧
      forall pos, pos < first.length -> first.chars[pos]? = second.chars[pos]?) ∧
    forall pos, pos ∈ comparison.reads -> pos < first.length ∧ pos < second.length

/-- The views first differ where no NUL has come before. -/
def DifferBeforeNul (first second : StringView) : Prop :=
  Exists fun pos => pos < first.length ∧ first.chars.take pos = second.chars.take pos ∧
    (0 : UInt8) ∉ first.chars.take pos ∧ first.chars[pos]? ≠ second.chars[pos]?

/-- The views agree and hold a NUL. -/
def AgreeOnNul (first second : StringView) : Prop :=
  first.viewed = second.viewed ∧ (0 : UInt8) ∈ first.viewed

section

variable {first second : StringView}

theorem viewed_eq_iff (same : first.length = second.length) : first.viewed = second.viewed <->
    forall pos, pos < first.length -> first.chars[pos]? = second.chars[pos]? := by
  unfold viewed
  rw [List.ext_getElem?_iff, ← same]
  constructor
  · intro agree pos inside
    have here := agree pos
    rwa [List.getElem?_take_of_lt inside, List.getElem?_take_of_lt inside] at here
  · intro agree pos
    by_cases inside : pos < first.length
    · rw [List.getElem?_take_of_lt inside, List.getElem?_take_of_lt inside]
      exact agree pos inside
    · rw [List.getElem?_take_eq_none (Nat.le_of_not_lt inside),
        List.getElem?_take_eq_none (Nat.le_of_not_lt inside)]

theorem eq_of_length_ne (differs : first.length ≠ second.length) :
    eq first second = some ⟨false, []⟩ :=
  if_pos differs

/-- The reads go up to the place where `strcmp` stops. -/
theorem eq_of_stops {stop : Nat} {char char' : UInt8} (same : first.length = second.length)
    (stops : StopsAt first.chars second.chars stop char char') :
    eq first second = some ⟨decide (char = char'), List.range' 0 (stop + 1)⟩ := by
  unfold eq
  rw [if_neg (not_not_intro same), strcmp_eq stops]
  have zero : (orderAt char char' == 0) = decide (char = char') := by
    apply Bool.eq_iff_iff.mpr
    rw [beq_iff_eq, decide_eq_true_eq]
    exact orderAt_eq_zero stops.stops
  simp only [Option.bind_eq_bind, Option.bind_some, zero]
  rfl

theorem stops_of_eq {comparison : ViewComparison} (same : first.length = second.length)
    (returned : eq first second = some comparison) :
    Exists fun stop => Exists fun char => Exists fun char' =>
      StopsAt first.chars second.chars stop char char' := by
  unfold eq at returned
  rw [if_neg (not_not_intro same)] at returned
  rcases Option.bind_eq_some_iff.mp returned with ⟨order, returned, rest⟩
  exact stopsAt_of_strcmpFrom returned

/-- Below both lengths, the stop is one of two kinds. -/
theorem comparesChars_of_stops {stop : Nat} {char char' : UInt8}
    (same : first.length = second.length)
    (stops : StopsAt first.chars second.chars stop char char') : ComparesChars first second <->
      stop < first.length ∧ (char = char' -> first.viewed = second.viewed) := by
  have returned := eq_of_stops same stops
  have reads (pos : Nat) : pos ∈ List.range' 0 (stop + 1) <-> pos ≤ stop := by
    rw [List.mem_range'_1]
    omega
  rw [viewed_eq_iff same]
  constructor
  · rintro ⟨comparison, returned', exact_, inside⟩
    rw [returned, Option.some.injEq] at returned'
    subst returned'
    refine ⟨(inside stop ((reads stop).mpr (Nat.le_refl stop))).1, fun agree => ?_⟩
    exact (exact_.mp (decide_eq_true agree)).2
  · rintro ⟨inside, agree⟩
    refine ⟨_, returned, ?_, fun pos member => ?_⟩
    · rw [decide_eq_true_eq]
      refine ⟨fun here => ⟨same, agree here⟩, fun all => ?_⟩
      have here := all.2 stop inside
      rw [stops.here, stops.there] at here
      exact Option.some.inj here
    · have below : pos < first.length := Nat.lt_of_le_of_lt ((reads pos).mp member) inside
      exact ⟨below, same ▸ below⟩

theorem differ_or_agree_of_stops {stop : Nat} {char char' : UInt8}
    (stops : StopsAt first.chars second.chars stop char char') (inside : stop < first.length)
    (agree : char = char' -> first.viewed = second.viewed) :
    DifferBeforeNul first second ∨ AgreeOnNul first second := by
  by_cases equal : char = char'
  · refine Or.inr ⟨agree equal, List.mem_of_getElem? (i := stop) ?_⟩
    unfold viewed
    rw [List.getElem?_take_of_lt inside, stops.here, stops.stops equal]
  · refine Or.inl ⟨stop, inside, stops.same, stops.apart, fun here => equal ?_⟩
    rw [stops.here, stops.there] at here
    exact Option.some.inj here

theorem differ_or_agree (compares : ComparesChars first second)
    (same : first.length = second.length) :
    DifferBeforeNul first second ∨ AgreeOnNul first second := by
  rcases compares with ⟨comparison, returned, rest⟩
  rcases stops_of_eq same returned with ⟨stop, char, char', stops⟩
  rcases (comparesChars_of_stops same stops).mp ⟨comparison, returned, rest⟩ with ⟨inside, agree⟩
  exact differ_or_agree_of_stops stops inside agree

theorem comparesChars_of_differ (same : first.length = second.length)
    (differ : DifferBeforeNul first second) : ComparesChars first second := by
  rcases differ with ⟨pos, inside, agree, bare, differs⟩
  have here := List.getElem?_eq_getElem (Nat.lt_of_lt_of_le inside first.within_)
  have there := List.getElem?_eq_getElem (Nat.lt_of_lt_of_le (same ▸ inside) second.within_)
  rw [here, there, Ne, Option.some.injEq] at differs
  have stops : StopsAt first.chars second.chars pos _ _ :=
    { same := agree
      apart := bare
      here := here
      there := there
      stops := fun equal => absurd equal differs }
  exact (comparesChars_of_stops same stops).mpr ⟨inside, fun equal => absurd equal differs⟩

theorem comparesChars_of_agree (same : first.length = second.length)
    (agree : AgreeOnNul first second) : ComparesChars first second := by
  rcases agree with ⟨agree, member⟩
  rcases List.eq_append_cons_of_mem member with ⟨before, behind, split, bare⟩
  have inside : before.length < first.length := by
    have lengths := congrArg List.length split
    rw [viewed, List.length_take_of_le first.within_, List.length_append, List.length_cons] at lengths
    omega
  have take_viewed (view : StringView) (within_ : before.length < view.length)
      (split : view.viewed = before ++ 0 :: behind) :
      view.chars.take before.length = before ∧ view.chars[before.length]? = some 0 := by
    constructor
    · have taken := congrArg (List.take before.length) split
      rwa [viewed, List.take_take, Nat.min_eq_left (Nat.le_of_lt within_), List.take_left] at taken
    · have here := congrArg (fun chars : List UInt8 => chars[before.length]?) split
      simp only [viewed, List.getElem?_take_of_lt within_] at here
      rw [here, List.getElem?_append_right (Nat.le_refl _), Nat.sub_self]
      rfl
  rcases take_viewed first inside split with ⟨taken, here⟩
  rcases take_viewed second (same ▸ inside) (agree ▸ split) with ⟨taken', there⟩
  have stops : StopsAt first.chars second.chars before.length 0 0 :=
    { same := taken.trans taken'.symm
      apart := by rwa [taken]
      here := here
      there := there
      stops := fun _ => rfl }
  exact (comparesChars_of_stops same stops).mpr ⟨inside, fun _ => agree⟩

end

/-- Views of one length are compared rightly if they differ before any NUL, or do not differ
and hold one.  Otherwise `strcmp` goes past the end, or takes a NUL for it. -/
theorem comparesChars_iff (first second : StringView) : ComparesChars first second <->
    first.length ≠ second.length ∨ DifferBeforeNul first second ∨ AgreeOnNul first second := by
  by_cases same : first.length = second.length
  · constructor
    · intro compares
      exact Or.inr (differ_or_agree compares same)
    · rintro (differs | differ | agree)
      · exact absurd same differs
      · exact comparesChars_of_differ same differ
      · exact comparesChars_of_agree same agree
  · refine iff_of_true ⟨_, eq_of_length_ne same, ?_, ?_⟩ (Or.inl same)
    · exact iff_of_false Bool.false_ne_true fun both => same both.1
    · exact fun pos member => absurd member List.not_mem_nil

/-- Two views of one character, each at the start of a longer string. -/
theorem not_comparesChars_start :
    ¬ ComparesChars ⟨[121, 0], 1, by decide⟩ ⟨[121, 105, 0], 1, by decide⟩ := by
  intro compares
  rcases differ_or_agree compares rfl with ⟨pos, inside, _, _, differs⟩ | agree
  · cases Nat.lt_one_iff.mp inside
    exact differs rfl
  · exact absurd agree.2 (by decide)

/-- Whole strings are told apart, but only by reading the NUL behind an end. -/
theorem eq_ofCString (first second : CString) (behind behind' : List UInt8) :
    Exists fun reads => eq (ofCString first behind) (ofCString second behind') =
      some ⟨decide (first = second), reads⟩ := by
  by_cases same : first.strlen = second.strlen
  · rcases CString.strcmp_spec first second with
      ⟨stop, char, char', parts, settled, inside, inside', order, returned⟩
    refine ⟨List.range' 0 (stop + 1), ?_⟩
    unfold eq
    have same : (ofCString first behind).length = (ofCString second behind').length := same
    rw [if_neg (not_not_intro same)]
    have compared : strcmp (ofCString first behind).chars (ofCString second behind').chars =
        some ⟨orderAt char char', List.range' 0 (stop + 1)⟩ := returned behind behind'
    rw [compared]
    have zero : (orderAt char char' == 0) = decide (first = second) := by
      apply Bool.eq_iff_iff.mpr
      rw [beq_iff_eq, decide_eq_true_eq, orderAt_eq_zero settled, CString.eq_iff_of_parts parts]
    simp only [Option.bind_eq_bind, Option.bind_some, zero]
    rfl
  · refine ⟨[], ?_⟩
    rw [eq_of_length_ne same]
    have differs : first ≠ second := fun equal => same (congrArg CString.strlen equal)
    rw [decide_eq_false differs]

end StringView

namespace AllocatedString

/-- `operator StringView`. -/
def view (string : AllocatedString) (within_ : string.length ≤ string.string.length) :
    StringView where
  chars := string.string
  length := string.length
  within_ := within_

/-- `operator==`, which has no look at the lengths. -/
def eq (string : AllocatedString) (other : StringView) : Option ViewComparison := do
  let comparison <- strcmp string.string other.chars
  return ⟨comparison.order == 0, comparison.reads⟩

/-- Against a view of its own length, a string does as its view does. -/
theorem eq_view {string : AllocatedString} {other : StringView}
    (within_ : string.length ≤ string.string.length) (same : string.length = other.length) :
    eq string other = (string.view within_).eq other :=
  (if_neg (not_not_intro same)).symm

end AllocatedString

end Pine
end Pinyon
