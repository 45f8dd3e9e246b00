import Mathlib.Data.List.Infix
import Pinyon.Pine.StringCopy

namespace Pinyon
namespace Pine

/-!
# Comparing strings

`strcmp` goes on until it finds a NUL or a difference.  What it returns is settled by
the two characters there, and a NUL counts as the greater one wherever it stands.
-/

/-- What `strcmp` returns, and the places of both strings it has read. -/
structure Comparison where
  order : Int
  reads : List Nat
deriving DecidableEq

/-- The loop of `strcmp`, over the bytes at and behind `offset`.  `none` is a read where
there is nothing. -/
def strcmpFrom (offset : Nat) : List UInt8 -> List UInt8 -> Option Comparison
  | char :: first, char' :: second =>
      if char ≠ 0 ∧ char' ≠ 0 then
        let diff : Int := char.toNat - char'.toNat
        if 0 < diff then some ⟨1, [offset]⟩
        else if diff < 0 then some ⟨-1, [offset]⟩
        else do
          let rest <- strcmpFrom (offset + 1) first second
          return { rest with reads := offset :: rest.reads }
      else some ⟨if char ≠ char' then 1 else 0, [offset]⟩
  | _, _ => none

/-- `strcmp`. -/
def strcmp (first second : List UInt8) : Option Comparison :=
  strcmpFrom 0 first second

/-! ## Where the loop ends -/

/-- The loop ends at `stop`, where it has the two characters before it. -/
structure StopsAt (first second : List UInt8) (stop : Nat) (char char' : UInt8) : Prop where
  same : first.take stop = second.take stop
  apart : (0 : UInt8) ∉ first.take stop
  here : first[stop]? = some char
  there : second[stop]? = some char'
  stops : char = char' -> char = 0

/-- What is returned for the two characters at the stop. -/
def orderAt (char char' : UInt8) : Int :=
  if char ≠ 0 ∧ char' ≠ 0 then if char' < char then 1 else -1
  else if char ≠ char' then 1 else 0

theorem orderAt_eq_zero {char char' : UInt8} (settled : char = char' -> char = 0) :
    orderAt char char' = 0 <-> char = char' := by
  unfold orderAt
  by_cases both : char ≠ 0 ∧ char' ≠ 0
  · rw [if_pos both]
    refine iff_of_false ?_ fun same => both.1 (settled same)
    split <;> simp
  · rw [if_neg both, ite_eq_right_iff]
    exact ⟨fun nonzero => by_contra fun differs => absurd (nonzero differs) (by simp),
      fun same differs => absurd same differs⟩

theorem orderAt_neg {char char' : UInt8} (settled : char = char' -> char = 0) :
    orderAt char char' < 0 <-> char < char' ∧ char ≠ 0 := by
  unfold orderAt
  by_cases both : char ≠ 0 ∧ char' ≠ 0
  · rw [if_pos both]
    by_cases above : char' < char
    · rw [if_pos above]
      exact iff_of_false (by simp) fun less => UInt8.lt_asymm above less.1
    · rw [if_neg above]
      have differs : char ≠ char' := fun same => both.1 (settled same)
      exact iff_of_true (by simp) ⟨UInt8.lt_of_le_of_ne (UInt8.not_lt.mp above) differs, both.1⟩
  · rw [if_neg both]
    refine iff_of_false (by split <;> simp) fun less => both ⟨less.2, fun nul => ?_⟩
    exact UInt8.not_lt_zero (nul ▸ less.1)

namespace StopsAt

variable {first second : List UInt8} {stop : Nat} {char char' here there : UInt8}

theorem swap (stops : StopsAt first second stop char char') :
    StopsAt second first stop char' char where
  same := stops.same.symm
  apart := stops.same ▸ stops.apart
  here := stops.there
  there := stops.here
  stops same := same.trans (stops.stops same.symm)

theorem head (stops : char = char' -> char = 0) :
    StopsAt (char :: first) (char' :: second) 0 char char' where
  same := rfl
  apart := List.not_mem_nil
  here := rfl
  there := rfl
  stops := stops

theorem cons (stops : StopsAt first second stop char char') (bare : here ≠ 0) :
    StopsAt (here :: first) (here :: second) (stop + 1) char char' where
  same := by rw [List.take_succ_cons, List.take_succ_cons, stops.same]
  apart := by
    rw [List.take_succ_cons, List.mem_cons, not_or]
    exact ⟨bare.symm, stops.apart⟩
  here := stops.here
  there := stops.there
  stops := stops.stops

theorem uncons (stops : StopsAt (here :: first) (there :: second) (stop + 1) char char') :
    here = there ∧ here ≠ 0 ∧ StopsAt first second stop char char' := by
  have same := stops.same
  have apart := stops.apart
  rw [List.take_succ_cons, List.take_succ_cons, List.cons.injEq] at same
  rw [List.take_succ_cons, List.mem_cons, not_or] at apart
  exact ⟨same.1, Ne.symm apart.1, same.2, apart.2, stops.here, stops.there, stops.stops⟩

end StopsAt

/-- The loop reads every place up to its stop. -/
theorem strcmpFrom_eq {first second : List UInt8} {stop : Nat} {char char' : UInt8}
    (stops : StopsAt first second stop char char') (offset : Nat) :
    strcmpFrom offset first second =
      some ⟨orderAt char char', List.range' offset (stop + 1)⟩ := by
  induction first generalizing second stop offset with
  | nil => cases stops.here
  | cons here first inductionHypothesis =>
      cases second with
      | nil => cases stops.there
      | cons there second =>
          cases stop with
          | zero =>
              cases stops.here
              cases stops.there
              have settled := stops.stops
              unfold strcmpFrom orderAt
              by_cases both : char ≠ 0 ∧ char' ≠ 0
              · have differs : char ≠ char' := fun same => both.1 (settled same)
                have apart : char.toNat ≠ char'.toNat := fun same => differs (UInt8.toNat_inj.mp same)
                rw [if_pos both, if_pos both]
                by_cases above : char' < char
                · have less : char'.toNat < char.toNat := UInt8.lt_iff_toNat_lt.mp above
                  rw [if_pos above]
                  exact if_pos (by omega)
                · have less : ¬ char'.toNat < char.toNat := fun less =>
                    above (UInt8.lt_iff_toNat_lt.mpr less)
                  rw [if_neg above]
                  exact (if_neg (by omega)).trans (if_pos (by omega))
              · rw [if_neg both, if_neg both]
                rfl
          | succ before =>
              rcases stops.uncons with ⟨same, bare, before_⟩
              cases same
              unfold strcmpFrom
              rw [if_pos ⟨bare, bare⟩]
              simp only [Int.sub_self, Int.lt_irrefl, if_false]
              rw [inductionHypothesis before_ (offset + 1), List.range'_succ]
              rfl

theorem strcmp_eq {first second : List UInt8} {stop : Nat} {char char' : UInt8}
    (stops : StopsAt first second stop char char') :
    strcmp first second = some ⟨orderAt char char', List.range' 0 (stop + 1)⟩ :=
  strcmpFrom_eq stops 0

/-- A loop that returns has stopped somewhere. -/
theorem stopsAt_of_strcmpFrom {first second : List UInt8} {offset : Nat} {comparison : Comparison}
    (returned : strcmpFrom offset first second = some comparison) :
    Exists fun stop => Exists fun char => Exists fun char' =>
      StopsAt first second stop char char' := by
  induction first generalizing second offset comparison with
  | nil => cases returned
  | cons here first inductionHypothesis =>
      cases second with
      | nil => cases returned
      | cons there second =>
          by_cases ends : here = there -> here = 0
          · exact ⟨0, here, there, StopsAt.head ends⟩
          · rw [Classical.not_imp] at ends
            rcases ends with ⟨same, bare⟩
            cases same
            unfold strcmpFrom at returned
            rw [if_pos ⟨bare, bare⟩] at returned
            simp only [Int.sub_self, Int.lt_irrefl, if_false] at returned
            rcases Option.bind_eq_some_iff.mp returned with ⟨rest, returned, same⟩
            rcases inductionHypothesis returned with ⟨stop, char, char', stops⟩
            exact ⟨stop + 1, char, char', stops.cons bare⟩

/-! ## The order of strings -/

/-- Two strings part at two characters, one of them the NUL where that string ends. -/
structure PartsAt (first second : List UInt8) (char char' : UInt8) : Prop where
  below : first < second <-> char < char'
  above : second < first <-> char' < char
  initial : first <+: second <-> char = 0
  initial' : second <+: first <-> char' = 0

namespace PartsAt

variable {first second : List UInt8} {char char' here there : UInt8}

theorem swap (parts : PartsAt first second char char') : PartsAt second first char' char where
  below := parts.above
  above := parts.below
  initial := parts.initial'
  initial' := parts.initial

theorem nil_cons (bare : there ≠ 0) : PartsAt [] (there :: second) 0 there where
  below := iff_of_true (List.nil_lt_cons there second) (UInt8.pos_iff_ne_zero.mpr bare)
  above := iff_of_false (List.not_lt_nil _) UInt8.not_lt_zero
  initial := iff_of_true List.nil_prefix rfl
  initial' := iff_of_false (fun initial => List.cons_ne_nil _ _ (List.prefix_nil.mp initial)) bare

theorem nil_nil : PartsAt [] [] 0 0 where
  below := iff_of_false (List.not_lt_nil _) UInt8.not_lt_zero
  above := iff_of_false (List.not_lt_nil _) UInt8.not_lt_zero
  initial := iff_of_true List.nil_prefix rfl
  initial' := iff_of_true List.nil_prefix rfl

theorem cons (parts : PartsAt first second char char') (here : UInt8) :
    PartsAt (here :: first) (here :: second) char char' where
  below := List.cons_lt_cons_self.trans parts.below
  above := List.cons_lt_cons_self.trans parts.above
  initial := (List.prefix_cons_inj here).trans parts.initial
  initial' := (List.prefix_cons_inj here).trans parts.initial'

theorem cons_cons (differs : here ≠ there) (bare : here ≠ 0) (bare' : there ≠ 0) :
    PartsAt (here :: first) (there :: second) here there where
  below := List.cons_lt_cons_iff.trans (or_iff_left fun both => differs both.1)
  above := List.cons_lt_cons_iff.trans (or_iff_left fun both => differs both.1.symm)
  initial := iff_of_false (fun initial => differs (List.cons_prefix_cons.mp initial).1) bare
  initial' := iff_of_false (fun initial => differs (List.cons_prefix_cons.mp initial).1.symm) bare'

end PartsAt

/-- Nothing behind the NUL of either string has a part in where they part. -/
theorem exists_partsAt (first second : List UInt8) (bare : (0 : UInt8) ∉ first)
    (bare' : (0 : UInt8) ∉ second) :
    Exists fun stop => Exists fun char => Exists fun char' =>
      PartsAt first second char char' ∧ stop ≤ first.length ∧ stop ≤ second.length ∧
        forall behind behind',
          StopsAt (first ++ 0 :: behind) (second ++ 0 :: behind') stop char char' := by
  induction first generalizing second with
  | nil =>
      cases second with
      | nil =>
          exact
            ⟨0, 0, 0, PartsAt.nil_nil, Nat.le_refl _, Nat.le_refl _,
              fun _ _ => StopsAt.head fun _ => rfl⟩
      | cons there second =>
          rw [List.mem_cons, not_or] at bare'
          exact
            ⟨0, 0, there, PartsAt.nil_cons (Ne.symm bare'.1), Nat.le_refl _, Nat.zero_le _,
              fun _ _ => StopsAt.head fun _ => rfl⟩
  | cons here first inductionHypothesis =>
      rw [List.mem_cons, not_or] at bare
      cases second with
      | nil =>
          exact
            ⟨0, here, 0, (PartsAt.nil_cons (Ne.symm bare.1)).swap, Nat.zero_le _, Nat.le_refl _,
              fun _ _ => StopsAt.head id⟩
      | cons there second =>
          rw [List.mem_cons, not_or] at bare'
          by_cases same : here = there
          · cases same
            rcases inductionHypothesis second bare.2 bare'.2 with
              ⟨stop, char, char', parts, inside, inside', stops⟩
            exact
              ⟨stop + 1, char, char', parts.cons here, Nat.succ_le_succ inside,
                Nat.succ_le_succ inside',
                fun behind behind' => (stops behind behind').cons (Ne.symm bare.1)⟩
          · exact
              ⟨0, here, there, PartsAt.cons_cons same (Ne.symm bare.1) (Ne.symm bare'.1),
                Nat.zero_le _, Nat.zero_le _,
                fun _ _ => StopsAt.head fun same_ => absurd same_ same⟩

namespace CString

/-- The string and its NUL. -/
def bytes (string : CString) : List UInt8 :=
  string.chars ++ [0]

theorem strcmp_isSome (first second : CString) :
    (Pine.strcmp first.bytes second.bytes).isSome := by
  rcases exists_partsAt first.chars second.chars first.terminated second.terminated with
    ⟨stop, char, char', parts, inside, inside', stops⟩
  unfold bytes
  rw [strcmp_eq (stops [] [])]
  rfl

/-- What `strcmp` returns for two NUL-terminated strings. -/
def strcmp (first second : CString) : Int :=
  ((Pine.strcmp first.bytes second.bytes).get (strcmp_isSome first second)).order

theorem strcmp_spec (first second : CString) :
    Exists fun stop => Exists fun char => Exists fun char' =>
      PartsAt first.chars second.chars char char' ∧ (char = char' -> char = 0) ∧
        stop ≤ first.strlen ∧ stop ≤ second.strlen ∧ strcmp first second = orderAt char char' ∧
        forall behind behind',
          Pine.strcmp (first.chars ++ 0 :: behind) (second.chars ++ 0 :: behind') =
            some ⟨orderAt char char', List.range' 0 (stop + 1)⟩ := by
  rcases exists_partsAt first.chars second.chars first.terminated second.terminated with
    ⟨stop, char, char', parts, inside, inside', stops⟩
  refine
    ⟨stop, char, char', parts, (stops [] []).stops, inside, inside', ?_,
      fun behind behind' => strcmp_eq (stops behind behind')⟩
  unfold strcmp
  have returned := strcmp_eq (stops [] [])
  simp only [bytes, returned, Option.get_some]

/-- Nothing behind the NUL of either string matters, and nothing there is read. -/
theorem strcmp_behind (first second : CString) (behind behind' : List UInt8) :
    Exists fun stop => stop ≤ first.strlen ∧ stop ≤ second.strlen ∧
      Pine.strcmp (first.chars ++ 0 :: behind) (second.chars ++ 0 :: behind') =
        some ⟨strcmp first second, List.range' 0 (stop + 1)⟩ := by
  rcases strcmp_spec first second with
    ⟨stop, char, char', parts, settled, inside, inside', order, returned⟩
  exact ⟨stop, inside, inside', by rw [order, returned]⟩

/-- `first` is the start of `second`, and not all of it. -/
def ProperPrefix (first second : CString) : Prop :=
  first.chars <+: second.chars ∧ first ≠ second

instance (first second : CString) : Decidable (ProperPrefix first second) :=
  inferInstanceAs (Decidable (_ ∧ _))

theorem ext {first second : CString} (same : first.chars = second.chars) : first = second := by
  cases first
  cases second
  cases same
  rfl

section

variable {first second third : CString} {char char' : UInt8}

theorem eq_iff_of_parts (parts : PartsAt first.chars second.chars char char') :
    first = second <-> char = char' := by
  constructor
  · intro same
    cases same
    have apart : ¬ char < char' := fun less => List.lt_irrefl _ (parts.below.mpr less)
    have apart' : ¬ char' < char := fun less => List.lt_irrefl _ (parts.above.mpr less)
    exact UInt8.le_antisymm (UInt8.not_lt.mp apart') (UInt8.not_lt.mp apart)
  · intro same
    have apart : ¬ first.chars < second.chars := fun less =>
      UInt8.lt_irrefl char (same ▸ parts.below.mp less)
    have apart' : ¬ second.chars < first.chars := fun less =>
      UInt8.lt_irrefl char (same ▸ parts.above.mp less)
    exact ext (List.le_antisymm apart' apart)

theorem properPrefix_iff_of_parts (parts : PartsAt first.chars second.chars char char') :
    ProperPrefix first second <-> char = 0 ∧ char' ≠ 0 := by
  unfold ProperPrefix
  rw [parts.initial, Ne, eq_iff_of_parts parts]
  constructor
  · intro both
    exact ⟨both.1, fun nul => both.2 (both.1.trans nul.symm)⟩
  · intro both
    exact ⟨both.1, fun same => both.2 (same.symm.trans both.1)⟩

theorem lt_of_properPrefix (initial : ProperPrefix first second) : first.chars < second.chars := by
  rcases strcmp_spec first second with ⟨stop, char, char', parts, rest⟩
  rcases (properPrefix_iff_of_parts parts).mp initial with ⟨nul, bare⟩
  rw [parts.below, nul]
  exact UInt8.pos_iff_ne_zero.mpr bare

theorem strcmp_zero_iff (first second : CString) : strcmp first second = 0 <-> first = second := by
  rcases strcmp_spec first second with ⟨stop, char, char', parts, settled, _, _, order, _⟩
  rw [order, orderAt_eq_zero settled, eq_iff_of_parts parts]

/-- A proper prefix never comes out as the smaller one. -/
theorem strcmp_neg_iff (first second : CString) :
    strcmp first second < 0 <-> first.chars < second.chars ∧ ¬ ProperPrefix first second := by
  rcases strcmp_spec first second with ⟨stop, char, char', parts, settled, _, _, order, _⟩
  rw [order, orderAt_neg settled, parts.below, properPrefix_iff_of_parts parts]
  constructor
  · intro less
    exact ⟨less.1, fun both => less.2 both.1⟩
  · intro less
    refine ⟨less.1, fun nul => less.2 ⟨nul, fun nul' => ?_⟩⟩
    exact UInt8.not_lt_zero (nul' ▸ less.1)

theorem strcmp_pos_iff (first second : CString) :
    0 < strcmp first second <-> second.chars < first.chars ∨ ProperPrefix first second := by
  have zero := strcmp_zero_iff first second
  have neg := strcmp_neg_iff first second
  constructor
  · intro above
    by_contra neither
    rw [not_or] at neither
    have notLess : ¬ first.chars < second.chars := fun less =>
      Int.lt_asymm above (neg.mpr ⟨less, neither.2⟩)
    have same : first = second := ext (List.le_antisymm neither.1 notLess)
    exact absurd (zero.mpr same) (Int.ne_of_gt above)
  · intro above
    by_contra notAbove
    rcases Int.lt_or_eq_of_le (Int.not_lt.mp notAbove) with less | same
    · rcases neg.mp less with ⟨less, whole⟩
      exact above.elim (List.lt_asymm less) whole
    · cases zero.mp same
      exact above.elim (List.lt_irrefl _) fun initial => initial.2 rfl

/-- What is between a string and a continuation of it is a continuation too. -/
theorem prefix_of_between {first second rest : List UInt8} (above : ¬ second < first)
    (below : ¬ first ++ rest < second) : first <+: second := by
  induction first generalizing second with
  | nil => exact List.nil_prefix
  | cons here first inductionHypothesis =>
      cases second with
      | nil => exact absurd (List.nil_lt_cons here first) above
      | cons there second =>
          rw [List.cons_lt_cons_iff, not_or, not_and] at above
          rw [List.cons_append, List.cons_lt_cons_iff, not_or, not_and] at below
          have same : here = there :=
            UInt8.le_antisymm (UInt8.not_lt.mp above.1) (UInt8.not_lt.mp below.1)
          rw [List.cons_prefix_cons]
          exact ⟨same, inductionHypothesis (above.2 same.symm) (below.2 same)⟩

theorem strcmp_trans (below : strcmp first second ≤ 0) (below' : strcmp second third ≤ 0) :
    strcmp first third ≤ 0 := by
  rcases Int.lt_or_eq_of_le below with less | same
  · rcases Int.lt_or_eq_of_le below' with less' | same'
    · rcases (strcmp_neg_iff first second).mp less with ⟨less, apart⟩
      rcases (strcmp_neg_iff second third).mp less' with ⟨less', _⟩
      refine Int.le_of_lt ((strcmp_neg_iff first third).mpr ⟨List.lt_trans less less', ?_⟩)
      rintro ⟨⟨rest, continues⟩, _⟩
      -- `second` lies between the two, so `first` would be the start of it as well
      have initial : first.chars <+: second.chars :=
        prefix_of_between (List.lt_asymm less) (continues ▸ List.lt_asymm less')
      exact apart ⟨initial, fun same => List.lt_irrefl _ (same ▸ less)⟩
    · exact (strcmp_zero_iff second third).mp same' ▸ below
  · exact (strcmp_zero_iff first second).mp same ▸ below'

/-- The sign alone is right unless the first string is a proper prefix. -/
theorem sign_iff (first second : CString) :
    ((strcmp first second < 0 <-> first.chars < second.chars) ∧
      (0 < strcmp first second <-> second.chars < first.chars)) <-> ¬ ProperPrefix first second := by
  rw [strcmp_neg_iff, strcmp_pos_iff]
  constructor
  · intro signs initial
    exact (signs.1.mpr (lt_of_properPrefix initial)).2 initial
  · intro whole
    exact ⟨and_iff_left whole, or_iff_left whole⟩

/-- What the order of strings promises of two strings and a third one. -/
structure ThreeWay (first second third : CString) : Prop where
  below : strcmp first second < 0 <-> first.chars < second.chars
  above : 0 < strcmp first second <-> second.chars < first.chars
  opposite : (strcmp second first).sign = -(strcmp first second).sign
  equal : strcmp first second = 0 <-> first = second
  transitive : strcmp first second ≤ 0 -> strcmp second third ≤ 0 -> strcmp first third ≤ 0

/-- Both orders of two strings, one of which is the start of the other, come out as above. -/
theorem not_opposite (initial : ProperPrefix second first) :
    (strcmp second first).sign ≠ -(strcmp first second).sign := by
  have above : 0 < strcmp second first := (strcmp_pos_iff second first).mpr (Or.inr initial)
  have above' : 0 < strcmp first second :=
    (strcmp_pos_iff first second).mpr (Or.inl (lt_of_properPrefix initial))
  rw [Int.sign_eq_one_of_pos above, Int.sign_eq_one_of_pos above']
  decide

theorem opposite_of_neither (whole : ¬ ProperPrefix first second)
    (whole' : ¬ ProperPrefix second first) :
    (strcmp second first).sign = -(strcmp first second).sign := by
  have below := strcmp_neg_iff first second
  have below' := strcmp_neg_iff second first
  have above := strcmp_pos_iff first second
  have above' := strcmp_pos_iff second first
  rw [and_iff_left whole] at below
  rw [and_iff_left whole'] at below'
  rw [or_iff_left whole] at above
  rw [or_iff_left whole'] at above'
  rcases Int.lt_trichotomy (strcmp first second) 0 with less | same | greater
  · have greater' : 0 < strcmp second first := above'.mpr (below.mp less)
    rw [Int.sign_eq_one_of_pos greater', Int.sign_eq_neg_one_of_neg less]
    rfl
  · have same' : strcmp second first = 0 :=
      (strcmp_zero_iff second first).mpr ((strcmp_zero_iff first second).mp same).symm
    rw [same, same']
    rfl
  · have less' : strcmp second first < 0 := below'.mpr (above.mp greater)
    rw [Int.sign_eq_one_of_pos greater, Int.sign_eq_neg_one_of_neg less']

theorem threeWay_iff (first second third : CString) :
    ThreeWay first second third <-> ¬ ProperPrefix first second ∧ ¬ ProperPrefix second first := by
  constructor
  · intro order
    exact ⟨(sign_iff first second).mp ⟨order.below, order.above⟩,
      fun initial => not_opposite initial order.opposite⟩
  · rintro ⟨whole, whole'⟩
    rcases (sign_iff first second).mpr whole with ⟨below, above⟩
    exact
      { below := below
        above := above
        opposite := opposite_of_neither whole whole'
        equal := strcmp_zero_iff first second
        transitive := strcmp_trans }

/-- The start of a command comes behind the command. -/
theorem not_threeWay_start :
    ¬ ThreeWay ⟨[104, 101], by decide⟩ ⟨[104, 101, 108, 112], by decide⟩ CString.empty := by
  intro order
  exact (sign_iff _ _).mp ⟨order.below, order.above⟩ (by decide)

end

end CString

end Pine
end Pinyon
