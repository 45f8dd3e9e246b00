import Pinyon.Kernel.SystemTimer

namespace Pinyon
namespace Kernel

open Library

/-!
# Rearming the system timer

The loop of `reinit` goes in strides of one period from the comparison register up
to the counter, but compares the two as plain numbers.  A register that is above the
counter only because the counter has wrapped is left where it is, and a stride past
the end of the range begins the range again.
-/

namespace SystemTimer

variable {timer after : SystemTimer}

/-- The walk of the loop. -/
def strided (timer : SystemTimer) (strides : Nat) : Nat :=
  Wrapping.walk (2 ^ 32) timer.timerCounterMatch.toNat timer.compare1.toNat strides

/-- The loop ends after a number of strides. -/
def CatchesUpAfter (timer : SystemTimer) (strides : Nat) : Prop :=
  Wrapping.Arrives (2 ^ 32) timer.timerCounterMatch.toNat timer.compare1.toNat
    timer.lowerBits.toNat strides

/-- What the loop leaves. -/
def caughtUp (timer : SystemTimer) (strides : Nat) : SystemTimer :=
  { timer with compare1 := BitVec.ofNat 32 (timer.strided strides) }

theorem strided_zero (timer : SystemTimer) : timer.strided 0 = timer.compare1.toNat :=
  Wrapping.walk_zero _ timer.compare1.isLt

theorem strided_lt (timer : SystemTimer) (strides : Nat) : timer.strided strides < 2 ^ 32 :=
  Wrapping.walk_lt (by decide) _ _ _

/-- The timer behind one turn of the loop. -/
def advance (timer : SystemTimer) : SystemTimer :=
  { timer with compare1 := timer.compare1 + timer.timerCounterMatch }

theorem advance_strided (timer : SystemTimer) (strides : Nat) :
    timer.advance.strided strides = timer.strided (strides + 1) := by
  unfold strided
  rw [Wrapping.walk_succ, advance, BitVec.toNat_add]

theorem advance_caughtUp (timer : SystemTimer) (strides : Nat) :
    timer.advance.caughtUp strides = timer.caughtUp (strides + 1) := by
  unfold caughtUp
  rw [advance_strided]
  rfl

/-- One turn of the loop, with the counter standing still. -/
theorem catchUp_turn (timer : SystemTimer) (tests : Nat) :
    timer.catchUp (List.replicate (tests + 1) 0) =
      if timer.compare1 < timer.lowerBits then timer.advance.catchUp (List.replicate tests 0)
      else some timer :=
  rfl

theorem catchesUpAfter_iff {strides : Nat} :
    timer.CatchesUpAfter strides <-> timer.lowerBits.toNat ≤ timer.strided strides ∧
      forall fewer, fewer < strides -> timer.strided fewer < timer.lowerBits.toNat :=
  ⟨fun arrives => ⟨arrives.there, arrives.earlier⟩, fun both => ⟨both.1, both.2⟩⟩

theorem catchesUpAfter_zero :
    timer.CatchesUpAfter 0 <-> ¬timer.compare1 < timer.lowerBits := by
  rw [BitVec.lt_def, Nat.not_lt, catchesUpAfter_iff, strided_zero]
  constructor
  · intro both
    exact both.1
  · intro there
    exact ⟨there, fun fewer wrong => absurd wrong (Nat.not_lt_zero fewer)⟩

theorem catchesUpAfter_succ {strides : Nat} :
    timer.CatchesUpAfter (strides + 1) <->
      timer.compare1 < timer.lowerBits ∧ timer.advance.CatchesUpAfter strides := by
  have same : timer.advance.lowerBits = timer.lowerBits := rfl
  simp only [BitVec.lt_def, catchesUpAfter_iff, advance_strided, same, ← strided_zero]
  constructor
  · rintro ⟨there, earlier⟩
    refine ⟨earlier 0 (Nat.succ_pos strides), there, fun fewer less => ?_⟩
    exact earlier (fewer + 1) (Nat.succ_lt_succ less)
  · rintro ⟨below, there, earlier⟩
    refine ⟨there, fun fewer less => ?_⟩
    cases fewer with
    | zero => exact below
    | succ fewer => exact earlier fewer (Nat.lt_of_succ_lt_succ less)

/-- The loop, with the counter standing still. -/
theorem catchUp_eq_some_iff {tests : Nat} :
    timer.catchUp (List.replicate tests 0) = some after <->
      Exists fun strides => strides < tests ∧ timer.CatchesUpAfter strides ∧
        after = timer.caughtUp strides := by
  induction tests generalizing timer with
  | zero =>
      constructor
      · intro wrong
        cases wrong
      · rintro ⟨strides, wrong, _⟩
        exact absurd wrong (Nat.not_lt_zero strides)
  | succ tests inductionHypothesis =>
      rw [catchUp_turn]
      by_cases below : timer.compare1 < timer.lowerBits
      · rw [if_pos below, inductionHypothesis]
        constructor
        · rintro ⟨strides, less, arrives, same⟩
          refine ⟨strides + 1, Nat.succ_lt_succ less, catchesUpAfter_succ.mpr ⟨below, arrives⟩, ?_⟩
          rw [same, advance_caughtUp]
        · rintro ⟨strides, less, arrives, same⟩
          cases strides with
          | zero => exact absurd below (catchesUpAfter_zero.mp arrives)
          | succ strides =>
              refine ⟨strides, Nat.lt_of_succ_lt_succ less, (catchesUpAfter_succ.mp arrives).2, ?_⟩
              rw [same, advance_caughtUp]
      · rw [if_neg below]
        have stays : timer.caughtUp 0 = timer := by
          unfold caughtUp
          rw [strided_zero, BitVec.ofNat_toNat, BitVec.setWidth_eq]
        constructor
        · intro same
          refine ⟨0, Nat.succ_pos tests, catchesUpAfter_zero.mpr below, ?_⟩
          rw [stays]
          exact (Option.some.inj same).symm
        · rintro ⟨strides, _, arrives, same⟩
          cases strides with
          | zero => rw [same, stays]
          | succ strides => exact absurd (catchesUpAfter_succ.mp arrives).1 below

/-! ## Within one period -/

/-- With the counter standing still the call ends, and the next match is due behind
the counter by one period at most. -/
def RearmsInTime (timer : SystemTimer) : Prop :=
  Exists fun tests => Exists fun after =>
    timer.reinit (List.replicate tests 0) 0 = some after ∧
      0 < after.compare1 - after.lowerBits ∧
      after.compare1 - after.lowerBits ≤ after.timerCounterMatch

/-- How many periods lead from one value of the counter to another that differs by a
multiple of 8, which is what the period has in common with the range of the counter. -/
def periodsTo (start goal : Nat) : Nat :=
  Wrapping.stridesTo 8 (2 ^ 29) 146956601 start goal

/-- The comparison register is below the counter as a number.  If the counter is
further than a period below the end of its range, they differ by no whole number of
periods.  Else some value above the counter takes fewer periods than the counter. -/
def StridesPast (compare1 lowerBits : Nat) : Prop :=
  compare1 < lowerBits ∧
    if lowerBits + 125000 ≤ 2 ^ 32 then ¬125000 ∣ lowerBits - compare1
    else Exists fun above => lowerBits < above ∧ above < 2 ^ 32 ∧ above % 8 = compare1 % 8 ∧
      (lowerBits % 8 = compare1 % 8 -> periodsTo compare1 above < periodsTo compare1 lowerBits)

theorem stridesPast_of_room {compare1 lowerBits : Nat} (below : compare1 < lowerBits)
    (room : lowerBits + 125000 ≤ 2 ^ 32) (misses : ¬125000 ∣ lowerBits - compare1) :
    StridesPast compare1 lowerBits := by
  refine ⟨below, ?_⟩
  rw [if_pos room]
  exact misses

theorem period_invertible : 15625 * 146956601 % 2 ^ 29 = 1 % 2 ^ 29 := by
  decide

theorem compare1_lt (timer : SystemTimer) : timer.compare1.toNat < 8 * 2 ^ 29 :=
  timer.compare1.isLt

theorem lowerBits_lt (timer : SystemTimer) : timer.lowerBits.toNat < 8 * 2 ^ 29 :=
  timer.lowerBits.isLt

theorem rearmsInTime_iff_catchesUp :
    timer.RearmsInTime <-> Exists fun strides => timer.CatchesUpAfter strides ∧
      timer.lowerBits.toNat < timer.strided strides ∧
      timer.strided strides ≤ timer.lowerBits.toNat + timer.timerCounterMatch.toNat := by
  have ahead : forall strides, timer.CatchesUpAfter strides ->
      (BitVec.ofNat 32 (timer.strided strides) - timer.lowerBits).toNat =
        timer.strided strides - timer.lowerBits.toNat := by
    intro strides arrives
    have small := timer.strided_lt strides
    have shown : (BitVec.ofNat 32 (timer.strided strides)).toNat = timer.strided strides := by
      rw [BitVec.toNat_ofNat, Nat.mod_eq_of_lt small]
    rw [BitVec.toNat_sub_of_le, shown]
    rw [BitVec.le_def, shown]
    exact arrives.there
  constructor
  · rintro ⟨tests, after, reinits, positive, near⟩
    rcases Option.bind_eq_some_iff.mp reinits with ⟨caught, catches, done⟩
    rcases catchUp_eq_some_iff.mp catches with ⟨strides, _, arrives, rfl⟩
    cases Option.some.inj done
    refine ⟨strides, arrives, ?_, ?_⟩
    · have distance : 0 < (BitVec.ofNat 32 (timer.strided strides) - timer.lowerBits).toNat :=
        BitVec.lt_def.mp positive
      rw [ahead strides arrives] at distance
      exact Nat.lt_of_sub_pos distance
    · have distance : (BitVec.ofNat 32 (timer.strided strides) - timer.lowerBits).toNat ≤
          timer.timerCounterMatch.toNat := BitVec.le_def.mp near
      rw [ahead strides arrives] at distance
      exact Nat.sub_le_iff_le_add'.mp distance
  · rintro ⟨strides, arrives, past, near⟩
    have catches := catchUp_eq_some_iff.mpr ⟨strides, Nat.lt_succ_self strides, arrives, rfl⟩
    refine ⟨strides + 1, _, congrArg (Option.bind · _) catches, ?_, ?_⟩
    · have distance : 0 < (BitVec.ofNat 32 (timer.strided strides) - timer.lowerBits).toNat := by
        rw [ahead strides arrives]
        exact Nat.sub_pos_of_lt past
      exact BitVec.lt_def.mpr distance
    · have distance : (BitVec.ofNat 32 (timer.strided strides) - timer.lowerBits).toNat ≤
          timer.timerCounterMatch.toNat := by
        rw [ahead strides arrives]
        exact Nat.sub_le_iff_le_add'.mpr near
      exact BitVec.le_def.mpr distance

/-- Once the loop has turned it leaves the register less than a period above the
counter, or on it. -/
theorem rearmsInTime_iff_misses (below : timer.compare1 < timer.lowerBits) :
    timer.RearmsInTime <-> Exists fun strides => timer.CatchesUpAfter strides ∧
      timer.strided strides ≠ timer.lowerBits.toNat := by
  rw [rearmsInTime_iff_catchesUp]
  constructor
  · rintro ⟨strides, arrives, past, _⟩
    exact ⟨strides, arrives, Nat.ne_of_gt past⟩
  · rintro ⟨strides, arrives, misses⟩
    refine ⟨strides, arrives, Nat.lt_of_le_of_ne arrives.there misses.symm, ?_⟩
    cases strides with
    | zero => exact absurd below (catchesUpAfter_zero.mp arrives)
    | succ strides => exact Nat.le_of_lt (arrives.near (Nat.succ_pos strides))

/-- A register that is not below the counter stays out of reach. -/
theorem below_of_rearmsInTime (period : timer.timerCounterMatch = timerHz >>> sysHzBits)
    (passed : timer.lowerBits - timer.compare1 < 2 ^ 31) (rearms : timer.RearmsInTime) :
    timer.compare1 < timer.lowerBits := by
  by_contra above
  rcases rearmsInTime_iff_catchesUp.mp rearms with ⟨strides, arrives, past, near⟩
  cases strides with
  | succ strides => exact above (catchesUpAfter_succ.mp arrives).1
  | zero =>
      rw [strided_zero] at past near
      have stride : timer.timerCounterMatch.toNat = 125000 := by rw [period]; rfl
      have distance := BitVec.lt_def.mp passed
      rw [BitVec.toNat_sub] at distance
      have small := timer.compare1.isLt
      have half : (2 ^ 31 : BitVec 32).toNat = 2 ^ 31 := rfl
      omega

/-- What the code makes of a match that the counter has come to or passed. -/
theorem rearms_in_time_iff (period : timer.timerCounterMatch = timerHz >>> sysHzBits)
    (passed : timer.lowerBits - timer.compare1 < 2 ^ 31) :
    timer.RearmsInTime <-> StridesPast timer.compare1.toNat timer.lowerBits.toNat := by
  have stride : timer.timerCounterMatch.toNat = 125000 := by rw [period]; rfl
  rw [StridesPast, ← BitVec.lt_def]
  by_cases below : timer.compare1 < timer.lowerBits
  · rw [rearmsInTime_iff_misses below]
    unfold CatchesUpAfter strided
    rw [stride]
    split
    next room =>
        rcases Wrapping.exists_arrives_straight (by decide) (BitVec.lt_def.mp below) room with
          ⟨strides, arrives, meets⟩
        constructor
        · rintro ⟨others, arrivesToo, misses⟩
          refine ⟨below, fun divides => misses ?_⟩
          rw [arrivesToo.unique arrives]
          exact meets.mpr divides
        · rintro ⟨_, misses⟩
          exact ⟨strides, arrives, fun there => misses (meets.mp there)⟩
    next short =>
        rw [Wrapping.exists_arrives_ne_iff]
        have past := Wrapping.exists_past_iff (by decide) period_invertible
          timer.compare1_lt timer.lowerBits_lt
        exact past.trans ⟨fun holds => ⟨below, holds⟩, fun both => both.2⟩
  · constructor
    · intro rearms
      exact absurd (below_of_rearmsInTime period passed rearms) below
    · intro both
      exact absurd both.1 below

/-- The counter has just wrapped, with a match a tick before. -/
def justWrapped : SystemTimer where
  control := 2
  counter := 2 ^ 32
  compare1 := 2 ^ 32 - 1
  compare3 := 4000000
  jiffiesSinceBoot := 0
  timerCounterMatch := timerHz >>> sysHzBits

/-- The register stays a tick below the counter. -/
theorem wrapped_match_is_not_rearmed : ¬ forall timer : SystemTimer,
    timer.timerCounterMatch = timerHz >>> sysHzBits ->
      timer.lowerBits - timer.compare1 < 2 ^ 31 -> timer.RearmsInTime := by
  intro always
  have rearms := always justWrapped rfl (by decide)
  exact absurd (below_of_rearmsInTime rfl (by decide) rearms) (by decide)

/-- A match that the counter passed by ten ticks. -/
theorem rearms_in_time_iff_late :
    ({ justWrapped with counter := 125010, compare1 := 125000 } : SystemTimer).RearmsInTime :=
  (rearms_in_time_iff rfl (by decide)).mpr
    (stridesPast_of_room (by decide) (by decide) (by decide))

/-! ## The loop ends -/

/-- Going round the range again, the loop comes to all values with the same remainder
modulo 8, and none of them need be as large as the counter. -/
theorem reinit_ends_iff (period : timer.timerCounterMatch = timerHz >>> sysHzBits) :
    (Exists fun tests => Exists fun after =>
      timer.reinit (List.replicate tests 0) 0 = some after) <->
      timer.lowerBits.toNat ≤ 2 ^ 32 - 8 + timer.compare1.toNat % 8 := by
  have stride : timer.timerCounterMatch.toNat = 8 * 15625 := by rw [period]; rfl
  have ends : (Exists fun tests => Exists fun after =>
      timer.reinit (List.replicate tests 0) 0 = some after) <->
        Exists fun strides => timer.CatchesUpAfter strides := by
    constructor
    · rintro ⟨tests, after, reinits⟩
      rcases Option.bind_eq_some_iff.mp reinits with ⟨caught, catches, _⟩
      rcases catchUp_eq_some_iff.mp catches with ⟨strides, _, arrives, _⟩
      exact ⟨strides, arrives⟩
    · rintro ⟨strides, arrives⟩
      have catches := catchUp_eq_some_iff.mpr ⟨strides, Nat.lt_succ_self strides, arrives, rfl⟩
      exact ⟨strides + 1, _, congrArg (Option.bind · _) catches⟩
  rw [ends]
  unfold CatchesUpAfter
  rw [stride]
  refine (Wrapping.exists_arrives_iff (by decide) period_invertible timer.compare1_lt).trans ?_
  constructor
  · rintro ⟨above, there, inside, aligned⟩
    omega
  · intro room
    exact ⟨2 ^ 32 - 8 + timer.compare1.toNat % 8, room, by omega, by omega⟩

end SystemTimer

end Kernel
end Pinyon
