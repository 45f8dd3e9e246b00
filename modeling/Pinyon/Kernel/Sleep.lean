import Pinyon.Library.Wrapping
import Pinyon.Kernel.SchedulerRounds

namespace Pinyon
namespace Kernel

open Library

/-!
# Sleeping

A task that sleeps waits for the jiffies to come to an end time.  The end time is
computed modulo the range of the jiffies, and so is the time it is compared with.
-/

/-- The jiffies that an event counts. -/
def Event.jiffies : Event -> Nat
  | .irq timer _ => timer.getD 0
  | _ => 0

/-- The jiffies that a history counts. -/
def countedJiffies (events : List Event) : Nat :=
  (events.map Event.jiffies).sum

namespace System

variable {before entered after : System} {event : Event} {events : List Event} {secs : Nat}

/-- What the task that calls `sleep` waits for. -/
def sleepWaitable (system : System) (secs : Nat) : Waitable :=
  .sleepWaitable ((system.jiffies + secs * sysHz) % 2 ^ 32)

/-- Not before all the seconds are over, and then for half of the range of the jiffies. -/
def SleepsFor (system : System) (secs : Nat) : Prop :=
  forall (after : System) (elapsed : Nat), after.jiffies = (system.jiffies + elapsed) % 2 ^ 32 ->
    (elapsed < secs * sysHz -> after.isFinished (system.sleepWaitable secs) = false) ∧
      (secs * sysHz ≤ elapsed -> elapsed < secs * sysHz + 2 ^ 31 ->
        after.isFinished (system.sleepWaitable secs) = true)

/-- Sleeping is exact just when its end is in the first half of the range, without
having wrapped. -/
theorem sleeps_for_iff {system : System} (small : system.jiffies < 2 ^ 32) :
    system.SleepsFor secs <-> system.jiffies + secs * sysHz ≤ 2 ^ 31 := by
  have later : forall elapsed, Exists fun after : System =>
      after.jiffies = (system.jiffies + elapsed) % 2 ^ 32 := fun elapsed =>
    ⟨{ system with jiffies := (system.jiffies + elapsed) % 2 ^ 32 }, rfl⟩
  constructor
  · intro exactly
    by_contra late
    by_cases wrapped : 2 ^ 32 ≤ system.jiffies + secs * sysHz
    · -- the last of the jiffies before the wrap is not below the end time
      rcases later (2 ^ 32 - 1 - system.jiffies) with ⟨after, last⟩
      have early := (exactly after _ last).1 (by omega)
      rw [sleepWaitable, isFinished, last, decide_eq_false_iff_not] at early
      omega
    · -- the jiffies wrap within the time that is promised
      rcases later (2 ^ 32 - system.jiffies) with ⟨after, first⟩
      have long := (exactly after _ first).2 (by omega) (by omega)
      rw [sleepWaitable, isFinished, first, decide_eq_true_iff] at long
      omega
  · intro room after elapsed now
    rw [sleepWaitable, isFinished, now]
    constructor
    · intro early
      rw [decide_eq_false_iff_not]
      omega
    · intro ended long
      rw [decide_eq_true_iff]
      omega

/-- The shell, started at some jiffies. -/
def shellAt (jiffies : Nat) : System :=
  boot [.CreateUserTask, .CreateKernelTask] jiffies idleUart

/-- The last second of the first half of the range. -/
theorem sleeps_for_iff_second : (shellAt (2 ^ 31 - 8)).SleepsFor 1 :=
  (sleeps_for_iff (by decide)).mpr (by decide)

/-- A sleep of two seconds is over at once if the jiffies wrap in the first of them. -/
theorem sleep_across_the_wrap : ¬ forall (system : System) (secs : Nat),
    system.jiffies < 2 ^ 32 -> secs < 2 ^ 32 -> system.SleepsFor secs := by
  intro always
  have sleeps := always (shellAt (2 ^ 32 - 8)) 2 (by decide) (by decide)
  have early := (sleeps (shellAt (2 ^ 32 - 8)) 0 rfl).1 (by decide)
  exact absurd early (by decide)

/-! ## In a run of the kernel -/

theorem enter_jiffies (enters : before.enter event = some entered)
    (small : before.jiffies < 2 ^ 32) :
    entered.jiffies = (before.jiffies + event.jiffies) % 2 ^ 32 := by
  have still : before.jiffies = (before.jiffies + 0) % 2 ^ 32 := by
    rw [Nat.add_zero, Nat.mod_eq_of_lt small]
  cases enter_cases enters with
  | tick timer => rfl
  | uartIrq timer schedule => rfl
  | yield task calls => exact still
  | sleep secs task calls => exact still
  | exit task calls => exact still
  | request buf size isWriteRequest task uart calls started => exact still
  | test task call runs has phase => exact still
  | wait task call runs has phase => exact still
  | finish task call size runs has phase result => exact still

theorem step_jiffies (step : before.Step event after) (small : before.jiffies < 2 ^ 32) :
    after.jiffies = (before.jiffies + event.jiffies) % 2 ^ 32 := by
  rcases step with ⟨turns, performed⟩
  rcases Option.bind_eq_some_iff.mp performed with ⟨entered, enters, rest⟩
  rw [← enter_jiffies enters small]
  split at rest
  · rcases Option.bind_eq_some_iff.mp rest with ⟨picked, _, switched⟩
    cases switched
    rfl
  · cases rest
    rfl

/-- The jiffies count what the timer interrupts of a run count. -/
theorem jiffies_of_reaches (small : before.jiffies < 2 ^ 32)
    (reached : Reaches Step before events after) :
    after.jiffies = (before.jiffies + countedJiffies events) % 2 ^ 32 := by
  induction reached with
  | refl => rw [countedJiffies, List.map_nil, List.sum_nil, Nat.add_zero, Nat.mod_eq_of_lt small]
  | tail _ last inductionHypothesis =>
      have bounded := inductionHypothesis ▸ Nat.mod_lt _ (by decide)
      rw [step_jiffies last bounded, inductionHypothesis, Nat.mod_add_mod, countedJiffies, countedJiffies,
        List.map_cons, List.sum_cons]
      congr 1
      omega

/-- The scheduler leaves a task asleep as long as the seconds are not over. -/
theorem asleep_until_over {task : Task} (small : before.jiffies < 2 ^ 32)
    (room : before.jiffies + secs * sysHz ≤ 2 ^ 31)
    (reached : Reaches Step before events after) (early : countedJiffies events < secs * sysHz)
    (waits : task.state = .Waiting)
    (sleeps : task.waitingFor = some (before.sleepWaitable secs)) :
    ¬task.CanRunWhenInspected after.isFinished := by
  intro runs
  rcases runs.finished_of_waiting waits with ⟨waitable, waitsFor, finished⟩
  rw [sleeps] at waitsFor
  cases waitsFor
  have exactly := (sleeps_for_iff small).mpr room
  rw [(exactly after _ (jiffies_of_reaches small reached)).1 early] at finished
  cases finished

end System

end Kernel
end Pinyon
