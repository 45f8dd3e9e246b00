import Mathlib

namespace Pinyon
namespace Library

/-!
# Counters that wrap

A counter of fixed width shows a distance modulo its range.  Comparing two of its
values as plain numbers is right just when both or neither of them have wrapped.

Going round the range in strides of one size is different: it comes to all the
values that the unit common to the stride and the range allows, each after a number
of strides that the inverse of the stride gives.
-/

namespace Wrapping

/-! ## Comparing two values -/

/-- The counter has passed its end. -/
def Wraps (range origin distance : Nat) : Prop :=
  range ≤ origin + distance

instance (range origin distance : Nat) : Decidable (Wraps range origin distance) :=
  inferInstanceAs (Decidable (range ≤ origin + distance))

variable {range origin first second : Nat}

theorem shown_of_not_wraps (straight : ¬Wraps range origin first) :
    (origin + first) % range = origin + first :=
  Nat.mod_eq_of_lt (Nat.lt_of_not_le straight)

theorem shown_of_wraps (wrapped : Wraps range origin first) (small : origin < range)
    (short : first < range) : (origin + first) % range = origin + first - range := by
  rw [Nat.mod_eq_sub_mod wrapped, Nat.mod_eq_of_lt (by omega)]

/-- The values compare as the distances do, or the other way round. -/
theorem shown_lt_iff (small : origin < range) (shortFirst : first < range)
    (shortSecond : second < range) :
    ((origin + first) % range < (origin + second) % range <->
      (first < second <-> (Wraps range origin first <-> Wraps range origin second))) := by
  by_cases wrapsFirst : Wraps range origin first <;> by_cases wrapsSecond : Wraps range origin second
  · rw [shown_of_wraps wrapsFirst small shortFirst, shown_of_wraps wrapsSecond small shortSecond]
    unfold Wraps at *
    omega
  · rw [shown_of_wraps wrapsFirst small shortFirst, shown_of_not_wraps wrapsSecond]
    unfold Wraps at *
    omega
  · rw [shown_of_not_wraps wrapsFirst, shown_of_wraps wrapsSecond small shortSecond]
    unfold Wraps at *
    omega
  · rw [shown_of_not_wraps wrapsFirst, shown_of_not_wraps wrapsSecond]
    unfold Wraps at *
    omega

/-! ## Strides -/

/-- Where a number of strides leads. -/
def walk (range stride start strides : Nat) : Nat :=
  (start + strides * stride) % range

theorem walk_zero {range start : Nat} (stride : Nat) (small : start < range) :
    walk range stride start 0 = start := by
  rw [walk, Nat.zero_mul, Nat.add_zero, Nat.mod_eq_of_lt small]

theorem walk_succ (range stride start strides : Nat) :
    walk range stride start (strides + 1) =
      walk range stride ((start + stride) % range) strides := by
  rw [walk, walk, Nat.mod_add_mod, Nat.succ_mul, Nat.add_assoc, Nat.add_comm stride]

theorem walk_step (range stride start strides : Nat) :
    walk range stride start (strides + 1) = (walk range stride start strides + stride) % range := by
  rw [walk, walk, Nat.mod_add_mod, Nat.succ_mul, Nat.add_assoc]

theorem walk_lt {range : Nat} (some_ : 0 < range) (stride start strides : Nat) :
    walk range stride start strides < range :=
  Nat.mod_lt _ some_

/-- The walk gets to a limit for the first time. -/
structure Arrives (range stride start limit strides : Nat) : Prop where
  there : limit ≤ walk range stride start strides
  earlier : forall fewer, fewer < strides -> walk range stride start fewer < limit

variable {stride start limit strides : Nat}

/-- It goes past the limit by less than a stride. -/
theorem Arrives.near (arrives : Arrives range stride start limit strides)
    (moved : 0 < strides) : walk range stride start strides < limit + stride := by
  rcases Nat.exists_eq_succ_of_ne_zero (Nat.ne_of_gt moved) with ⟨fewer, rfl⟩
  have before := arrives.earlier fewer (Nat.lt_succ_self fewer)
  rw [walk_step]
  have least := Nat.mod_le (walk range stride start fewer + stride) range
  omega

theorem Arrives.unique {others : Nat} (arrives : Arrives range stride start limit strides)
    (arrivesToo : Arrives range stride start limit others) : strides = others := by
  rcases Nat.lt_trichotomy strides others with less | same | greater
  · exact absurd arrives.there (Nat.not_le.mpr (arrivesToo.earlier strides less))
  · exact same
  · exact absurd arrivesToo.there (Nat.not_le.mpr (arrives.earlier others greater))

/-- It misses the limit if it is past it before it meets it. -/
theorem exists_arrives_ne_iff :
    (Exists fun strides => Arrives range stride start limit strides ∧
      walk range stride start strides ≠ limit) <->
    Exists fun strides => limit < walk range stride start strides ∧
      forall fewer, fewer < strides -> walk range stride start fewer ≠ limit := by
  constructor
  · rintro ⟨strides, arrives, misses⟩
    refine ⟨strides, Nat.lt_of_le_of_ne arrives.there misses.symm, fun fewer less => ?_⟩
    exact Nat.ne_of_lt (arrives.earlier fewer less)
  · rintro ⟨strides, past, misses⟩
    have some_ : Exists fun strides => limit ≤ walk range stride start strides :=
      ⟨strides, Nat.le_of_lt past⟩
    classical
    refine ⟨Nat.find some_, ⟨Nat.find_spec some_, ?_⟩, ?_⟩
    · intro fewer less
      exact Nat.lt_of_not_le (Nat.find_min some_ less)
    · rcases Nat.lt_or_eq_of_le (Nat.find_min' some_ (Nat.le_of_lt past)) with less | same
      · exact misses _ less
      · rw [same]
        exact Nat.ne_of_gt past

/-- With room for a stride behind the limit the walk gets there straight. -/
theorem exists_arrives_straight (positive : 0 < stride) (below : start < limit)
    (room : limit + stride ≤ range) :
    Exists fun strides => Arrives range stride start limit strides ∧
      (walk range stride start strides = limit <-> stride ∣ limit - start) := by
  have straight : forall strides, start + strides * stride < range ->
      walk range stride start strides = start + strides * stride :=
    fun strides short => Nat.mod_eq_of_lt short
  have whole := Nat.div_add_mod (limit - start) stride
  have rest := Nat.mod_lt (limit - start) positive
  have commuted := Nat.mul_comm stride ((limit - start) / stride)
  by_cases divides : stride ∣ limit - start
  · have none_left := Nat.mod_eq_zero_of_dvd divides
    have reached : start + (limit - start) / stride * stride = limit := by omega
    refine ⟨(limit - start) / stride, ⟨?_, fun fewer less => ?_⟩, ?_⟩
    · rw [straight _ (by omega), reached]
    · have shorter : (fewer + 1) * stride ≤ (limit - start) / stride * stride :=
        Nat.mul_le_mul_right stride less
      rw [Nat.succ_mul] at shorter
      rw [straight _ (by omega)]
      omega
    · rw [straight _ (by omega), reached]
      exact ⟨fun _ => divides, fun _ => rfl⟩
  · have some_left : (limit - start) % stride ≠ 0 := fun zero =>
      divides (Nat.dvd_of_mod_eq_zero zero)
    have past : ((limit - start) / stride + 1) * stride = (limit - start) / stride * stride + stride :=
      Nat.succ_mul _ _
    refine ⟨(limit - start) / stride + 1, ⟨?_, fun fewer less => ?_⟩, ?_⟩
    · rw [straight _ (by omega)]
      omega
    · have shorter : fewer * stride ≤ (limit - start) / stride * stride :=
        Nat.mul_le_mul_right stride (Nat.le_of_lt_succ less)
      rw [straight _ (by omega)]
      omega
    · rw [straight _ (by omega)]
      constructor
      · intro same
        omega
      · intro wrong
        exact absurd wrong divides

/-! ## How many strides lead to a value -/

/-- The number of strides to a value, in a range of some units and with the inverse
of the stride for their number. -/
def stridesTo (unit units inverse start goal : Nat) : Nat :=
  (unit * units + goal - start) / unit * inverse % units

variable {unit units steps inverse goal : Nat}

theorem walk_aligned (unit units steps start strides : Nat) :
    walk (unit * units) (unit * steps) start strides % unit = start % unit := by
  rw [walk, Nat.mod_mul_right_mod, Nat.mul_left_comm, Nat.add_mul_mod_self_left]

/-- Multiplying by the inverse undoes multiplying by the stride. -/
theorem mul_mod_eq_iff (invertible : steps * inverse % units = 1 % units) (first second : Nat) :
    first * steps % units = second % units <-> first % units = second * inverse % units := by
  constructor
  · intro same
    have scaled : first * steps * inverse % units = second * inverse % units := by
      rw [Nat.mul_mod, same, ← Nat.mul_mod]
    rw [← scaled, Nat.mul_assoc, Nat.mul_mod, invertible, ← Nat.mul_mod, Nat.mul_one]
  · intro same
    rw [Nat.mul_mod, same, ← Nat.mul_mod, Nat.mul_assoc, Nat.mul_comm inverse, Nat.mul_mod,
      invertible, ← Nat.mul_mod, Nat.mul_one]

theorem walk_eq_iff (positive : 0 < unit) (invertible : steps * inverse % units = 1 % units)
    (small : start < unit * units) (within : goal < unit * units)
    (aligned : goal % unit = start % unit) (strides : Nat) :
    walk (unit * units) (unit * steps) start strides = goal <->
      strides % units = stridesTo unit units inverse start goal := by
  rw [stridesTo, ← mul_mod_eq_iff invertible]
  have divides : unit ∣ unit * units + goal - start := by
    apply (Nat.modEq_iff_dvd' (by omega)).mp
    rw [Nat.ModEq, Nat.mul_add_mod, aligned]
  rcases divides with ⟨between, gap⟩
  have goalEq : start + unit * between = unit * units + goal := by omega
  have shown : goal = (start + unit * between) % (unit * units) := by
    rw [goalEq, Nat.add_mod_left, Nat.mod_eq_of_lt within]
  have strided : strides * (unit * steps) = unit * (strides * steps) := Nat.mul_left_comm _ _ _
  rw [gap, Nat.mul_div_cancel_left between positive, walk, strided]
  constructor
  · intro same
    have congruent : start + unit * (strides * steps) ≡ start + unit * between [MOD unit * units] :=
      same.trans shown
    exact Nat.ModEq.mul_left_cancel' (Nat.ne_of_gt positive)
      (Nat.ModEq.add_left_cancel' start congruent)
  · intro same
    have congruent : strides * steps ≡ between [MOD units] := same
    rw [shown]
    exact (congruent.mul_left' unit).add_left start

/-- The walk comes to every aligned value. -/
theorem exists_strides (positive : 0 < unit) (invertible : steps * inverse % units = 1 % units)
    (small : start < unit * units) (within : goal < unit * units)
    (aligned : goal % unit = start % unit) :
    walk (unit * units) (unit * steps) start (stridesTo unit units inverse start goal) = goal := by
  apply (walk_eq_iff positive invertible small within aligned _).mpr
  apply Nat.mod_eq_of_lt
  apply Nat.mod_lt
  exact Nat.pos_of_mul_pos_left (Nat.zero_lt_of_lt small)

/-- The walk gets to the limit if an aligned value does. -/
theorem exists_arrives_iff (positive : 0 < unit) (invertible : steps * inverse % units = 1 % units)
    (small : start < unit * units) :
    (Exists fun strides => Arrives (unit * units) (unit * steps) start limit strides) <->
      Exists fun above => limit ≤ above ∧ above < unit * units ∧ above % unit = start % unit := by
  constructor
  · rintro ⟨strides, arrives⟩
    exact ⟨_, arrives.there, walk_lt (Nat.zero_lt_of_lt small) _ _ _, walk_aligned _ _ _ _ _⟩
  · rintro ⟨above, past, inside, aligned⟩
    have there := exists_strides positive invertible small inside aligned
    have some_ : Exists fun strides => limit ≤ walk (unit * units) (unit * steps) start strides :=
      ⟨_, there.symm ▸ past⟩
    classical
    exact ⟨Nat.find some_, Nat.find_spec some_, fun fewer less =>
      Nat.lt_of_not_le (Nat.find_min some_ less)⟩

/-- The walk is past the limit before it meets it if some value above the limit takes
fewer strides. -/
theorem exists_past_iff (positive : 0 < unit) (invertible : steps * inverse % units = 1 % units)
    (small : start < unit * units) (within : limit < unit * units) :
    (Exists fun strides => limit < walk (unit * units) (unit * steps) start strides ∧
      forall fewer, fewer < strides -> walk (unit * units) (unit * steps) start fewer ≠ limit) <->
    Exists fun above => limit < above ∧ above < unit * units ∧ above % unit = start % unit ∧
      (limit % unit = start % unit ->
        stridesTo unit units inverse start above < stridesTo unit units inverse start limit) := by
  have someUnits : 0 < units := Nat.pos_of_mul_pos_left (Nat.zero_lt_of_lt small)
  constructor
  · rintro ⟨strides, past, misses⟩
    have inside := walk_lt (Nat.zero_lt_of_lt small) (unit * steps) start strides
    have onGrid := walk_aligned unit units steps start strides
    refine ⟨_, past, inside, onGrid, fun aligned => ?_⟩
    have counted := (walk_eq_iff positive invertible small inside onGrid strides).mp rfl
    have bound : stridesTo unit units inverse start limit < units := Nat.mod_lt _ someUnits
    have meets := exists_strides positive invertible small within aligned
    have enough := Nat.mod_le strides units
    apply Nat.lt_of_le_of_ne
    · rw [← counted]
      apply enough.trans
      apply Nat.le_of_not_lt
      exact fun less => misses _ less meets
    · intro same
      have back := (walk_eq_iff positive invertible small inside onGrid _).mpr
        ((Nat.mod_eq_of_lt bound).trans same.symm)
      rw [meets] at back
      omega
  · rintro ⟨above, past, inside, onGrid, sooner⟩
    have bound : stridesTo unit units inverse start above < units := Nat.mod_lt _ someUnits
    have meets := exists_strides positive invertible small inside onGrid
    refine ⟨stridesTo unit units inverse start above, meets.symm ▸ past, fun fewer less back => ?_⟩
    have aligned : limit % unit = start % unit := by
      rw [← back]
      exact walk_aligned unit units steps start fewer
    have counted := (walk_eq_iff positive invertible small within aligned fewer).mp back
    have later := sooner aligned
    have enough := Nat.mod_le fewer units
    omega

end Wrapping

end Library
end Pinyon
