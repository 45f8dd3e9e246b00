import Pinyon.Kernel.SystemTimer

namespace Pinyon
namespace Kernel

open Library

/-!
# What a timer interrupt counts

An interrupt counts one jiffy, or as many as the fallback stands for if the counter is
past the fallback register.  The runs here have interrupts at any times, with the
counter running between them and during them.
-/

/-- What happens to the timer: time passes, the hardware raises match flags, or an
interrupt is handled. -/
inductive TimerEvent where
  | pass (ticks : Nat)
  | raise (flags : BitVec 32)
  | irq (first : Nat) (delays : List Nat) (last : Nat)

/-- The timer, and what the counter was when the fallback register was last set. -/
structure TimerRun where
  timer : SystemTimer
  reinitialized : Nat
deriving DecidableEq, Repr

namespace SystemTimer

variable {timer after : SystemTimer} {delays : List Nat} {first last : Nat}

/-- The loop changes only the comparison register, while time passes. -/
theorem catchUp_keeps (catches : timer.catchUp delays = some after) :
    after.jiffiesSinceBoot = timer.jiffiesSinceBoot ∧
      after.timerCounterMatch = timer.timerCounterMatch := by
  induction delays generalizing timer with
  | nil => cases catches
  | cons ticks delays inductionHypothesis =>
      rw [catchUp] at catches
      split at catches
      · rcases inductionHypothesis catches with ⟨jiffies, period⟩
        exact ⟨jiffies, period⟩
      · cases catches
        exact ⟨rfl, rfl⟩

theorem handleIrq_spec (handles : timer.handleIrq first delays last = some after) :
    after.jiffiesSinceBoot = timer.jiffiesSinceBoot + (timer.pass first).jiffiesSinceLastMatch ∧
      after.timerCounterMatch = timer.timerCounterMatch ∧
      after.compare3 = after.lowerBits + after.timerCounterMatch <<< fallbackSysHzScalerBits := by
  rw [handleIrq] at handles
  split at handles
  · cases handles
  · rcases Option.bind_eq_some_iff.mp handles with ⟨reinitialized, reinits, done⟩
    rcases Option.bind_eq_some_iff.mp reinits with ⟨caught, catches, armed⟩
    rcases catchUp_keeps catches with ⟨jiffies, period⟩
    cases armed
    cases done
    refine ⟨?_, period, rfl⟩
    exact congrArg (· + (timer.pass first).jiffiesSinceLastMatch) jiffies

end SystemTimer

namespace TimerRun

variable {before after : TimerRun} {event : TimerEvent}

def boot (first second : Nat) (timer : SystemTimer) : TimerRun where
  timer := timer.init first second
  reinitialized := timer.counter + first + second

def perform (run : TimerRun) : TimerEvent -> Option TimerRun
  | .pass ticks => some { run with timer := run.timer.pass ticks }
  | .raise flags => some { run with timer.control := run.timer.control ||| flags }
  | .irq first delays last => do
      let timer <- run.timer.handleIrq first delays last
      return { timer := timer, reinitialized := timer.counter }

/-- The ticks from the last time that the fallback register was set to the reading
that it is compared with. -/
def elapsed (run : TimerRun) (first : Nat) : Nat :=
  run.timer.counter + first - run.reinitialized

/-- Interrupts are handled less than `2 ^ 31` ticks after the one before. -/
def Timely (run : TimerRun) : TimerEvent -> Prop
  | .irq first _ _ => run.elapsed first < 2 ^ 31
  | _ => True

def Step (before : TimerRun) (event : TimerEvent) (after : TimerRun) : Prop :=
  before.Timely event ∧ before.perform event = some after

/-- An interrupt adds the jiffies of the fallback just when more than that many
periods have elapsed. -/
def Follows (before : TimerRun) (event : TimerEvent) (after : TimerRun) : Prop :=
  match event with
  | .irq first _ _ =>
      after.timer.jiffiesSinceBoot = before.timer.jiffiesSinceBoot +
        if fallbackSysHzScaler.toNat * before.timer.timerCounterMatch.toNat < before.elapsed first
        then fallbackSysHzScaler else 1
  | _ => True

/-- Since the fallback register was set the counter has wrapped just when setting the
register did. -/
def WrapsTogether (before : TimerRun) : TimerEvent -> Prop
  | .irq first _ _ =>
      (Wrapping.Wraps (2 ^ 32) (before.reinitialized % 2 ^ 32) (32 * 125000) <->
        Wrapping.Wraps (2 ^ 32) (before.reinitialized % 2 ^ 32) (before.elapsed first))
  | _ => True

/-- The fallback register was set to the end of its periods. -/
structure Armed (run : TimerRun) : Prop where
  period : run.timer.timerCounterMatch = timerHz >>> sysHzBits
  fallback : run.timer.compare3.toNat = (run.reinitialized % 2 ^ 32 + 32 * 125000) % 2 ^ 32
  earlier : run.reinitialized ≤ run.timer.counter

theorem armFallback_toNat (timer : SystemTimer)
    (period : timer.timerCounterMatch = timerHz >>> sysHzBits) :
    (timer.lowerBits + timer.timerCounterMatch <<< fallbackSysHzScalerBits).toNat =
      (timer.counter % 2 ^ 32 + 32 * 125000) % 2 ^ 32 := by
  rw [period, BitVec.toNat_add, SystemTimer.lowerBits, BitVec.toNat_ofNat]
  rfl

theorem armed_boot (first second : Nat) (timer : SystemTimer) :
    (boot first second timer).Armed where
  period := rfl
  fallback := armFallback_toNat (timer.init first second) rfl
  earlier := Nat.le_refl _

theorem Armed.step (armed : before.Armed) (step : before.Step event after) : after.Armed := by
  rcases step with ⟨_, performed⟩
  cases event with
  | pass ticks =>
      cases performed
      exact ⟨armed.period, armed.fallback, Nat.le_add_right_of_le armed.earlier⟩
  | raise flags =>
      cases performed
      exact ⟨armed.period, armed.fallback, armed.earlier⟩
  | irq first delays last =>
      rcases Option.bind_eq_some_iff.mp performed with ⟨timer, handles, done⟩
      cases done
      rcases SystemTimer.handleIrq_spec handles with ⟨_, period, fallback⟩
      have same := period.trans armed.period
      refine ⟨same, ?_, Nat.le_refl _⟩
      rw [fallback]
      exact armFallback_toNat timer same

/-- The comparison that the code makes. -/
theorem Armed.past_fallback_iff (armed : before.Armed) {first : Nat}
    (timely : before.elapsed first < 2 ^ 31) :
    (before.timer.compare3 < (before.timer.pass first).lowerBits <->
      (32 * 125000 < before.elapsed first <-> before.WrapsTogether (.irq first [] 0))) := by
  have reading : (before.timer.pass first).lowerBits.toNat =
      (before.reinitialized % 2 ^ 32 + before.elapsed first) % 2 ^ 32 := by
    have later : before.reinitialized + before.elapsed first = before.timer.counter + first :=
      Nat.add_sub_cancel' (Nat.le_add_right_of_le armed.earlier)
    rw [Nat.mod_add_mod, later]
    exact BitVec.toNat_ofNat _ _
  rw [BitVec.lt_def, armed.fallback, reading]
  exact Wrapping.shown_lt_iff (Nat.mod_lt _ (by decide)) (by decide) (by omega)

/-- The two numbers of jiffies tell the cases apart. -/
theorem counts_alike_iff {past long : Prop} [Decidable past] [Decidable long] :
    (if past then fallbackSysHzScaler else 1) = (if long then fallbackSysHzScaler else 1) <->
      (past <-> long) := by
  have different : fallbackSysHzScaler ≠ 1 := by decide
  by_cases isPast : past <;> by_cases isLong : long
  · rw [if_pos isPast, if_pos isLong]
    exact ⟨fun _ => iff_of_true isPast isLong, fun _ => rfl⟩
  · rw [if_pos isPast, if_neg isLong]
    exact ⟨fun wrong => absurd wrong different, fun same => absurd (same.mp isPast) isLong⟩
  · rw [if_neg isPast, if_pos isLong]
    exact ⟨fun wrong => absurd wrong.symm different, fun same => absurd (same.mpr isLong) isPast⟩
  · rw [if_neg isPast, if_neg isLong]
    exact ⟨fun _ => iff_of_false isPast isLong, fun _ => rfl⟩

/-- One interrupt is counted right just when both have wrapped, or neither. -/
theorem Armed.follows_iff (armed : before.Armed) (step : before.Step event after) :
    before.Follows event after <-> before.WrapsTogether event := by
  rcases step with ⟨timely, performed⟩
  cases event with
  | pass ticks => exact Iff.rfl
  | raise flags => exact Iff.rfl
  | irq first delays last =>
      rcases Option.bind_eq_some_iff.mp performed with ⟨timer, handles, done⟩
      cases done
      have counted := (SystemTimer.handleIrq_spec handles).1
      have compared := armed.past_fallback_iff timely
      have periods : fallbackSysHzScaler.toNat * before.timer.timerCounterMatch.toNat =
          32 * 125000 := by
        rw [armed.period]
        rfl
      have register : (before.timer.pass first).compare3 = before.timer.compare3 := rfl
      unfold Follows
      dsimp only
      rw [counted, BitVec.add_right_inj, SystemTimer.jiffiesSinceLastMatch, register,
        counts_alike_iff, periods, compared]
      unfold WrapsTogether
      tauto

/-- The runs in which every interrupt is counted right are those in which the counter
and the fallback register always wrapped together. -/
theorem jiffies_follow_counter_iff (timer : SystemTimer) (first second : Nat)
    {events : List TimerEvent} {final : TimerRun} :
    Reaches (keeping Step Follows) (boot first second timer) events final <->
      Reaches (guarded Step WrapsTogether) (boot first second timer) events final :=
  Reaches.keeping_iff_guarded Armed (armed_boot first second timer)
    (fun _ _ _ armed step => armed.follows_iff step)
    fun _ _ _ armed step _ => armed.step step

/-- A timer that is started two seconds before its counter wraps. -/
def late : SystemTimer where
  control := 0
  counter := 2 ^ 32 - 2000000
  compare1 := 0
  compare3 := 0
  jiffiesSinceBoot := 0
  timerCounterMatch := 0

/-- The first match of that timer. -/
def firstMatch : TimerRun :=
  { boot 0 0 late with timer := { (boot 0 0 late).timer.pass 125000 with control := 2 } }

/-- The first interrupt of that timer counts 32 jiffies. -/
theorem one_period_counts_as_many : ¬ forall (timer : SystemTimer) (first second : Nat)
    (events : List TimerEvent) (before after : TimerRun) (event : TimerEvent),
    Reaches Step (boot first second timer) events before -> before.Step event after ->
      before.Follows event after := by
  intro always
  have reached : Reaches Step (boot 0 0 late) [.raise 2, .pass 125000] firstMatch :=
    .tail (.tail .refl ⟨trivial, rfl⟩) ⟨trivial, by decide⟩
  have counted : (firstMatch.perform (.irq 10 [0, 0] 0)).map (·.timer.jiffiesSinceBoot) =
      some 32 := by decide
  rcases Option.map_eq_some_iff.mp counted with ⟨after, handled, jiffies⟩
  have timely : firstMatch.elapsed 10 < 2 ^ 31 := by decide
  have follows := always late 0 0 _ _ after (.irq 10 [0, 0] 0) reached ⟨timely, handled⟩
  have expected : firstMatch.timer.jiffiesSinceBoot +
      (if fallbackSysHzScaler.toNat * firstMatch.timer.timerCounterMatch.toNat <
        firstMatch.elapsed 10 then fallbackSysHzScaler else 1) = 1 := by decide
  have one : after.timer.jiffiesSinceBoot = 1 := follows.trans expected
  rw [jiffies] at one
  exact absurd one (by decide)

end TimerRun

end Kernel
end Pinyon
