import Pinyon.Library.History
import Pinyon.Kernel.SchedulerRounds

namespace Pinyon
namespace Kernel

open Library

/-!
# The CPU time of a task

A task is credited with the time it has run only when it is left, and while it
runs `cputime` adds what has passed since it was picked.  Crediting the running
task at once would therefore make every account right, at any time.  This is what
holds of every run; a switch credits the task that is left and begins a new
slice.

The ledger that the accounts are compared with has the jiffies that elapsed while
each task was the running one, without a bound.
-/

/-! ## The code -/

/-- `cputime`, of a task that is the running one or not. -/
def Task.cputime (jiffies : Nat) (isRunning : Bool) (task : Task) : Nat :=
  if isRunning then (task.cpuJiffies + (2 ^ 32 + jiffies - task.jiffiesWhenScheduled)) % 2 ^ 32
  else task.cpuJiffies

namespace TaskManager

def cputimes (jiffies : Nat) (manager : TaskManager) : List Nat :=
  manager.tasks.mapIdx fun index task => task.cputime jiffies (index = manager.runningTaskIndex)

def schedule (finished : Waitable -> Bool) (turns jiffies : Nat) (manager : TaskManager) :
    Option TaskManager := do
  let picked <- manager.pickNextTask finished turns
  if picked.runningTaskIndex = manager.runningTaskIndex then return picked
  else
    let charged := picked.modify manager.runningTaskIndex (Task.charge jiffies)
    return charged.modify picked.runningTaskIndex (Task.start jiffies)

/-- `exit_running_task`, when the vector could be shrunk. -/
def exitRunningTask (finished : Waitable -> Bool) (turns jiffies : Nat) (manager : TaskManager) :
    Option TaskManager := do
  let remaining := { manager with tasks := manager.tasks.eraseIdx manager.runningTaskIndex }
  let picked <- remaining.pickNextTask finished turns
  return picked.modify picked.runningTaskIndex (Task.start jiffies)

/-- `start_scheduler`, which needs a first task. -/
def startScheduler (jiffies : Nat) (manager : TaskManager) : Option TaskManager :=
  if manager.tasks = [] then none else some (manager.modify 0 (Task.start jiffies))

end TaskManager

/-! ## Accounts -/

namespace Task

/-- What the CPU time of a task is computed from. -/
def account (task : Task) : Nat × Nat :=
  (task.cpuJiffies, task.jiffiesWhenScheduled)

variable {task other : Task} {jiffies : Nat}

@[simp]
theorem account_updateState (finished : Waitable -> Bool) :
    (task.updateState finished).account = task.account := by
  unfold updateState
  split <;> rfl

@[simp]
theorem account_waitFor (waitable : Waitable) : (task.waitFor waitable).account = task.account :=
  rfl

theorem charge_of_account (same : other.account = task.account) :
    (other.charge jiffies).cpuJiffies = (task.charge jiffies).cpuJiffies := by
  rw [account, account, Prod.mk.injEq] at same
  rw [charge, charge, same.1, same.2]

/-- A slice that has just begun is worth nothing. -/
theorem charge_start (small : task.cpuJiffies < 2 ^ 32) :
    ((task.start jiffies).charge jiffies).cpuJiffies = task.cpuJiffies := by
  have none : 2 ^ 32 + jiffies - jiffies = 2 ^ 32 := Nat.add_sub_cancel ..
  simp only [charge, start, none, Nat.add_mod_right, Nat.mod_eq_of_lt small]

/-- Jiffies that elapse go to the running task, also when their counter wraps. -/
theorem charge_tick (small : jiffies < 2 ^ 32) (scheduled : task.jiffiesWhenScheduled < 2 ^ 32)
    (amount : Nat) :
    (task.charge ((jiffies + amount) % 2 ^ 32)).cpuJiffies =
      ((task.charge jiffies).cpuJiffies + amount) % 2 ^ 32 := by
  simp only [charge]
  omega

end Task

/-- Every account says what the ledger says. -/
def Settled (tasks : List Task) (ran : List Nat) : Prop :=
  tasks.map Task.cpuJiffies = ran.map (· % 2 ^ 32)

/-- Crediting the running task would settle the accounts. -/
structure Accounted (manager : TaskManager) (jiffies : Nat) (ran : List Nat) : Prop where
  running : manager.runningTaskIndex < manager.tasks.length
  small : jiffies < 2 ^ 32
  scheduled : forall task, manager.runningTask = some task -> task.jiffiesWhenScheduled < 2 ^ 32
  exact : Settled (manager.tasks.modify manager.runningTaskIndex (Task.charge jiffies)) ran

variable {manager picked after : TaskManager} {tasks : List Task} {ran : List Nat}
variable {jiffies turns : Nat} {finished : Waitable -> Bool}

theorem Settled.length (settled : Settled tasks ran) : tasks.length = ran.length := by
  have lengths := congrArg List.length settled
  rwa [List.length_map, List.length_map] at lengths

theorem Settled.small (settled : Settled tasks ran) {task : Task} (member : task ∈ tasks) :
    task.cpuJiffies < 2 ^ 32 := by
  have listed : task.cpuJiffies ∈ ran.map (· % 2 ^ 32) := settled ▸ List.mem_map_of_mem member
  rcases List.mem_map.mp listed with ⟨total, _, same⟩
  rw [← same]
  exact Nat.mod_lt _ (by decide)

theorem Settled.congr {others : List Task} (settled : Settled tasks ran)
    (same : others.map Task.cpuJiffies = tasks.map Task.cpuJiffies) : Settled others ran :=
  same.trans settled

theorem Settled.eraseIdx (settled : Settled tasks ran) (index : Nat) :
    Settled (tasks.eraseIdx index) (ran.eraseIdx index) := by
  rw [Settled, ← List.eraseIdx_map, ← List.eraseIdx_map, settled]

/-- A task that is picked begins a slice. -/
theorem Settled.start (settled : Settled tasks ran) {index : Nat} (inside : index < tasks.length)
    (small : jiffies < 2 ^ 32) :
    Accounted (TaskManager.modify ⟨tasks, index⟩ index (Task.start jiffies)) jiffies ran where
  running := by
    rw [TaskManager.modify, List.length_modify]
    exact inside
  small := small
  scheduled := by
    intro task here
    rw [TaskManager.runningTask, TaskManager.modify, List.getElem?_modify_eq,
      List.getElem?_eq_getElem inside] at here
    cases here
    exact small
  exact := by
    apply settled.congr
    apply List.ext_getElem?
    intro other
    simp only [TaskManager.modify, List.getElem?_map, List.getElem?_modify]
    cases here : tasks[other]? with
    | none => rfl
    | some task =>
        have bounded := settled.small (List.mem_of_getElem? here)
        by_cases same : index = other
        · simp only [if_pos same, Option.map_eq_map, Option.map_some,
            Task.charge_start bounded]
        · simp only [if_neg same, Option.map_eq_map, Option.map_some]

/-- Whatever changes a task and leaves its account alone. -/
theorem Accounted.congr (accounted : Accounted manager jiffies ran)
    (same : picked.tasks.map Task.account = manager.tasks.map Task.account)
    (index : picked.runningTaskIndex = manager.runningTaskIndex) :
    Accounted picked jiffies ran := by
  have pointwise : forall other : Nat, picked.tasks[other]?.map Task.account =
      manager.tasks[other]?.map Task.account := by
    intro other
    rw [← List.getElem?_map, ← List.getElem?_map, same]
  have length : picked.tasks.length = manager.tasks.length := by
    have lengths := congrArg List.length same
    rwa [List.length_map, List.length_map] at lengths
  refine ⟨by rw [index, length]; exact accounted.running, accounted.small, ?_, ?_⟩
  · intro task here
    rw [TaskManager.runningTask, index] at here
    have both := pointwise manager.runningTaskIndex
    rw [here] at both
    rcases Option.map_eq_some_iff.mp both.symm with ⟨old, there, equal⟩
    have bounded := accounted.scheduled old there
    rw [Task.account, Task.account, Prod.mk.injEq] at equal
    rwa [equal.2] at bounded
  · apply accounted.exact.congr
    apply List.ext_getElem?
    intro other
    have both := pointwise other
    simp only [List.getElem?_map, List.getElem?_modify, index]
    cases here : picked.tasks[other]? with
    | none =>
        rw [here] at both
        rw [Option.map_eq_none_iff.mp both.symm]
    | some task =>
        rw [here] at both
        rcases Option.map_eq_some_iff.mp both.symm with ⟨old, there, equal⟩
        rw [there]
        by_cases running : manager.runningTaskIndex = other
        · simp only [if_pos running, Option.map_eq_map, Option.map_some]
          rw [Task.charge_of_account equal]
        · simp only [if_neg running, Option.map_eq_map, Option.map_some]
          exact congrArg (fun account => some account.1) equal.symm

theorem Accounted.tick (accounted : Accounted manager jiffies ran) (amount : Nat) :
    Accounted manager ((jiffies + amount) % 2 ^ 32)
      (ran.modify manager.runningTaskIndex (· + amount)) where
  running := accounted.running
  small := Nat.mod_lt _ (by decide)
  scheduled := accounted.scheduled
  exact := by
    have settled := accounted.exact
    apply List.ext_getElem?
    intro other
    have before := congrArg (·[other]?) settled
    simp only [List.getElem?_map, List.getElem?_modify] at before ⊢
    by_cases running : manager.runningTaskIndex = other
    · subst running
      simp only [if_pos, Option.map_eq_map] at before ⊢
      cases here : manager.tasks[manager.runningTaskIndex]? with
      | none =>
          rw [here] at before
          rw [Option.map_eq_none_iff.mp before.symm]
          rfl
      | some task =>
          rw [here] at before
          rcases Option.map_eq_some_iff.mp before.symm with ⟨total, there, same⟩
          rw [there]
          have bounded := accounted.scheduled task here
          simp only [Option.map_some, Task.charge_tick accounted.small bounded, Option.some.injEq]
          rw [← same, Nat.mod_add_mod]
    · simpa only [if_neg running, id_map'] using before

/-! ## Switching -/

/-- The loop of the scheduler changes no account, and finds a task. -/
theorem pickNextTask_account (picks : manager.pickNextTask finished turns = some picked) :
    picked.tasks.map Task.account = manager.tasks.map Task.account ∧
      picked.runningTaskIndex < picked.tasks.length := by
  induction turns generalizing manager with
  | zero => cases picks
  | succ turns inductionHypothesis =>
      rw [TaskManager.pickNextTask] at picks
      simp only at picks
      generalize (if manager.tasks.length ≤ manager.runningTaskIndex + 1 then 0
        else manager.runningTaskIndex + 1) = index at picks
      cases here : manager.tasks[index]? with
      | none =>
          rw [here] at picks
          cases picks
      | some task =>
          rw [here] at picks
          rcases List.getElem?_eq_some_iff.mp here with ⟨inside, there⟩
          have same : (manager.tasks.set index (task.updateState finished)).map Task.account =
              manager.tasks.map Task.account := by
            rw [List.map_set, Task.account_updateState, ← there, ← List.getElem_map (h := by
              rwa [List.length_map]) Task.account, List.set_getElem_self]
          dsimp only at picks
          split at picks
          · cases picks
            refine ⟨same, ?_⟩
            rw [List.length_set]
            exact inside
          · rcases inductionHypothesis picks with ⟨sameLater, found⟩
            exact ⟨sameLater.trans same, found⟩

/-- Leaving the running task settles the accounts. -/
theorem Accounted.settled (accounted : Accounted manager jiffies ran)
    (picks : manager.pickNextTask finished turns = some picked) :
    Settled (picked.tasks.modify manager.runningTaskIndex (Task.charge jiffies)) ran := by
  rcases pickNextTask_account picks with ⟨same, _⟩
  have stays : Accounted ⟨picked.tasks, manager.runningTaskIndex⟩ jiffies ran :=
    accounted.congr same rfl
  exact stays.exact

theorem Accounted.schedule (accounted : Accounted manager jiffies ran)
    (schedules : manager.schedule finished turns jiffies = some after) :
    Accounted after jiffies ran := by
  rcases Option.bind_eq_some_iff.mp schedules with ⟨picked, picks, switches⟩
  rcases pickNextTask_account picks with ⟨same, inside⟩
  dsimp only at switches
  split at switches
  · next stays =>
      cases switches
      exact accounted.congr same stays
  · cases switches
    have settled := accounted.settled picks
    apply settled.start _ accounted.small
    rw [List.length_modify]
    exact inside

theorem Accounted.exitRunningTask (accounted : Accounted manager jiffies ran)
    (exits : manager.exitRunningTask finished turns jiffies = some after) :
    Accounted after jiffies (ran.eraseIdx manager.runningTaskIndex) := by
  rcases Option.bind_eq_some_iff.mp exits with ⟨picked, picks, switches⟩
  rcases pickNextTask_account picks with ⟨same, inside⟩
  cases switches
  -- the task that exits takes its account with it, so it need not be credited
  have remaining : Settled (manager.tasks.eraseIdx manager.runningTaskIndex)
      (ran.eraseIdx manager.runningTaskIndex) := by
    have settled := accounted.exact.eraseIdx manager.runningTaskIndex
    rwa [List.eraseIdx_modify_of_eq] at settled
  have settled : Settled picked.tasks (ran.eraseIdx manager.runningTaskIndex) := by
    apply remaining.congr
    have cpuTimes := congrArg (List.map Prod.fst) same
    rwa [List.map_map, List.map_map] at cpuTimes
  exact settled.start inside accounted.small

theorem Accounted.startScheduler {kinds : List CreateFlags} (small : jiffies < 2 ^ 32)
    (starts : TaskManager.startScheduler jiffies ⟨kinds.map Task.create, 0⟩ = some after) :
    Accounted after jiffies (kinds.map fun _ => 0) := by
  rw [TaskManager.startScheduler] at starts
  split at starts
  · cases starts
  · next nonempty =>
      cases starts
      have settled : Settled (kinds.map Task.create) (kinds.map fun _ => 0) := by
        rw [Settled, List.map_map, List.map_map]
        rfl
      exact settled.start (List.length_pos_iff.mpr nonempty) small

/-! ## Answers -/

/-- What `cputime` answers is what crediting the running task would leave. -/
theorem cputimes_eq (jiffies : Nat) (manager : TaskManager) :
    manager.cputimes jiffies =
      (manager.tasks.modify manager.runningTaskIndex (Task.charge jiffies)).map Task.cpuJiffies := by
  apply List.ext_getElem?
  intro index
  simp only [TaskManager.cputimes, List.getElem?_mapIdx, List.getElem?_map, List.getElem?_modify]
  by_cases running : manager.runningTaskIndex = index
  · simp only [running, decide_true, if_true, Option.map_eq_map, Option.map_map]
    rfl
  · have other : ¬ index = manager.runningTaskIndex := Ne.symm running
    simp only [other, running, decide_false, if_false, Option.map_eq_map, Option.map_map]
    rfl

theorem Accounted.cputimes (accounted : Accounted manager jiffies ran) :
    manager.cputimes jiffies = ran.map (· % 2 ^ 32) :=
  (cputimes_eq jiffies manager).trans accounted.exact

/-! ## Runs -/

/-- The task manager and the counter of jiffies.  The last two fields only record
what happened: how many jiffies elapsed, and how many while each task was the
running one. -/
structure Clock where
  manager : TaskManager
  jiffies : Nat
  elapsed : Nat := 0
  ran : List Nat

inductive ClockEvent where
  | tick (amount : Nat)
  | schedule (finished : Waitable -> Bool)
  | wait (waitable : Waitable) (finished : Waitable -> Bool)
  | cputime (index : Nat)
  | exit (finished : Waitable -> Bool)

def ClockEvent.exits : ClockEvent -> Bool
  | .exit _ => true
  | _ => false

namespace Clock

def start (kinds : List CreateFlags) (jiffies : Nat) : Option Clock := do
  let manager <- TaskManager.startScheduler (jiffies % 2 ^ 32) ⟨kinds.map Task.create, 0⟩
  return { manager, jiffies := jiffies % 2 ^ 32, ran := kinds.map fun _ => 0 }

def perform (turns : Nat) (clock : Clock) : ClockEvent -> Option Clock
  | .tick amount => some {
      manager := clock.manager
      jiffies := (clock.jiffies + amount) % 2 ^ 32
      elapsed := clock.elapsed + amount
      ran := clock.ran.modify clock.manager.runningTaskIndex (· + amount) }
  | .schedule finished => do
      let manager <- clock.manager.schedule finished turns clock.jiffies
      return { clock with manager }
  | .wait waitable finished => do
      let waiting := clock.manager.modify clock.manager.runningTaskIndex (Task.waitFor waitable)
      let manager <- waiting.schedule finished turns clock.jiffies
      return { clock with manager }
  | .cputime index => do
      let _ <- clock.manager.tasks[index]?
      return clock
  | .exit finished => do
      let manager <- clock.manager.exitRunningTask finished turns clock.jiffies
      return { clock with
        manager := manager
        ran := clock.ran.eraseIdx clock.manager.runningTaskIndex }

def Step (before : Clock) (event : ClockEvent) (after : Clock) : Prop :=
  Exists fun turns => before.perform turns event = some after

/-- The accounts are right, and no jiffy is lost. -/
def Exact (clock : Clock) : Prop :=
  Accounted clock.manager clock.jiffies clock.ran

theorem modify_account (manager : TaskManager) (index : Nat) (waitable : Waitable) :
    (manager.modify index (Task.waitFor waitable)).tasks.map Task.account =
      manager.tasks.map Task.account := by
  apply List.ext_getElem?
  intro other
  simp only [TaskManager.modify, List.getElem?_map, List.getElem?_modify]
  cases manager.tasks[other]? with
  | none => rfl
  | some task => by_cases same : index = other <;> simp [same]

variable {before after : Clock} {event : ClockEvent}

theorem Exact.step (exact : before.Exact) (step : before.Step event after) : after.Exact := by
  rcases step with ⟨turns, performed⟩
  cases event with
  | tick amount =>
      cases performed
      exact Accounted.tick exact amount
  | schedule finished =>
      rcases Option.bind_eq_some_iff.mp performed with ⟨manager, schedules, ended⟩
      cases ended
      exact Accounted.schedule exact schedules
  | wait waitable finished =>
      rcases Option.bind_eq_some_iff.mp performed with ⟨manager, schedules, ended⟩
      cases ended
      have waiting : Accounted (before.manager.modify before.manager.runningTaskIndex
          (Task.waitFor waitable)) before.jiffies before.ran :=
        Accounted.congr exact (modify_account before.manager _ waitable) rfl
      exact waiting.schedule schedules
  | cputime index =>
      rcases Option.bind_eq_some_iff.mp performed with ⟨task, _, ended⟩
      cases ended
      exact exact
  | exit finished =>
      rcases Option.bind_eq_some_iff.mp performed with ⟨manager, exits, ended⟩
      cases ended
      exact Accounted.exitRunningTask exact exits

theorem sum_modify_add {ran : List Nat} {index : Nat} (inside : index < ran.length)
    (amount : Nat) : (ran.modify index (· + amount)).sum = ran.sum + amount := by
  induction ran generalizing index with
  | nil => cases inside
  | cons first rest inductionHypothesis =>
      cases index with
      | zero =>
          rw [List.modify_zero_cons, List.sum_cons, List.sum_cons]
          omega
      | succ index =>
          rw [List.modify_succ_cons, List.sum_cons, List.sum_cons,
            inductionHypothesis (Nat.lt_of_succ_lt_succ inside), Nat.add_assoc]

/-- Unless a task exits, the ledger gains what elapses. -/
theorem sum_step (exact : before.Exact) (step : before.Step event after)
    (stays : event.exits = false) (balanced : before.ran.sum = before.elapsed) :
    after.ran.sum = after.elapsed := by
  rcases step with ⟨turns, performed⟩
  cases event with
  | tick amount =>
      cases performed
      have length := Settled.length exact.exact
      rw [List.length_modify] at length
      dsimp only
      rw [sum_modify_add (length ▸ exact.running), balanced]
  | schedule finished =>
      rcases Option.bind_eq_some_iff.mp performed with ⟨manager, _, ended⟩
      cases ended
      exact balanced
  | wait waitable finished =>
      rcases Option.bind_eq_some_iff.mp performed with ⟨manager, _, ended⟩
      cases ended
      exact balanced
  | cputime index =>
      rcases Option.bind_eq_some_iff.mp performed with ⟨task, _, ended⟩
      cases ended
      exact balanced
  | exit finished => cases stays

theorem exact_start {kinds : List CreateFlags} {jiffies : Nat} {clock : Clock}
    (started : start kinds jiffies = some clock) : clock.Exact ∧ clock.ran.sum = clock.elapsed := by
  rcases Option.bind_eq_some_iff.mp started with ⟨manager, starts, ended⟩
  cases ended
  refine ⟨Accounted.startScheduler (Nat.mod_lt _ (by decide)) starts, ?_⟩
  dsimp only
  rw [List.map_const', List.sum_replicate, smul_zero]

variable {kinds : List CreateFlags} {jiffies : Nat} {events : List ClockEvent}

theorem Exact.of_reaches (started : start kinds jiffies = some before)
    (reached : Reaches Step before events after) : after.Exact :=
  reached.invariant Exact (exact_start started).1 fun _ _ _ exact step => exact.step step

theorem sum_of_reaches (started : start kinds jiffies = some before)
    (reached : Reaches Step before events after)
    (stay : forall event, event ∈ events -> event.exits = false) :
    after.ran.sum = after.elapsed := by
  induction reached with
  | refl => exact (exact_start started).2
  | tail earlier last inductionHypothesis =>
      have balanced := inductionHypothesis fun event member =>
        stay event (List.mem_cons_of_mem _ member)
      exact sum_step (Exact.of_reaches started earlier) last (stay _ List.mem_cons_self) balanced

/-- In every run, whatever the tasks wait for and exit at, `cputime` answers for each
task the jiffies that elapsed while it ran.  When no task exits, the answers sum to
the jiffies that elapsed. -/
theorem cputime_exact (started : start kinds jiffies = some before)
    (reached : Reaches Step before events after) :
    after.manager.cputimes after.jiffies = after.ran.map (· % 2 ^ 32) ∧
      ((forall event, event ∈ events -> event.exits = false) ->
        (after.manager.cputimes after.jiffies).sum % 2 ^ 32 = after.elapsed % 2 ^ 32) := by
  have answers := Accounted.cputimes (Exact.of_reaches started reached)
  refine ⟨answers, fun stay => ?_⟩
  rw [answers, ← List.sum_nat_mod, sum_of_reaches started reached stay]

/-- A shell and a spinning task, shortly before the counter wraps. -/
def beforeWrapping : Clock where
  manager := {
    tasks := [
      { isKernelTask := false, state := .Runnable, jiffiesWhenScheduled := 2 ^ 32 - 3 },
      { isKernelTask := true }]
    runningTaskIndex := 0 }
  jiffies := 2 ^ 32 - 3
  ran := [0, 0]

theorem cputime_exact_wrapping : Exists fun after =>
    Reaches Step beforeWrapping [.tick 5, .schedule fun _ => false, .tick 7] after ∧
    after.manager.cputimes after.jiffies = [7, 5] := by
  have started : start [.CreateUserTask, .CreateKernelTask] (2 ^ 32 - 3) = some beforeWrapping := rfl
  have first : Reaches Step beforeWrapping [.tick 7] _ := .tail .refl ⟨0, rfl⟩
  have second : Reaches Step beforeWrapping [.schedule fun _ => false, .tick 7] _ :=
    .tail first ⟨1, rfl⟩
  have third : Reaches Step beforeWrapping [.tick 5, .schedule fun _ => false, .tick 7] _ :=
    .tail second ⟨0, rfl⟩
  exact ⟨_, third, (cputime_exact started third).1⟩

end Clock

/-! ## The events of the kernel

Timer interrupts, system calls and exits do nothing else to the accounts. -/

/-- What an event adds to the ledger, or strikes from it. -/
def Event.bill (running : Nat) (ran : List Nat) : Event -> List Nat
  | .irq (some amount) _ => ran.modify running (· + amount)
  | .exit => ran.eraseIdx running
  | _ => ran

namespace System

variable {before entered after : System} {event : Event}

theorem modifyRunning_account {change : Task -> Task}
    (keeps : forall task, (change task).account = task.account) (system : System) :
    (system.modifyRunning change).manager.tasks.map Task.account =
      system.manager.tasks.map Task.account := by
  apply List.ext_getElem?
  intro other
  simp only [modifyRunning, TaskManager.modify, List.getElem?_map, List.getElem?_modify]
  cases system.manager.tasks[other]? with
  | none => rfl
  | some task => by_cases same : system.manager.runningTaskIndex = other <;> simp [same, keeps]

theorem schedule_eq_switchTo
    (picks : entered.manager.pickNextTask finished turns = some picked) :
    entered.manager.schedule finished turns entered.jiffies =
      some (entered.switchTo false picked).manager := by
  rw [TaskManager.schedule, picks, switchTo]
  simp only [Option.bind_eq_bind, Option.bind_some, Bool.false_eq_true, if_false]
  split <;> rfl

/-- Up to the call of the scheduler only time passes, or the running task is removed. -/
theorem accounted_enter (accounted : Accounted before.manager before.jiffies ran)
    (stays : event ≠ .exit) (enters : before.enter event = some entered) :
    Accounted entered.manager entered.jiffies (event.bill before.manager.runningTaskIndex ran) := by
  have changed : forall {change : Task -> Task},
      (forall task, (change task).account = task.account) ->
        Accounted (before.modifyRunning change).manager before.jiffies ran :=
    fun keeps => accounted.congr (modifyRunning_account keeps _) rfl
  have ticked (timer : Option Nat) (uart : Option (List Meanwhile)) :
      Accounted before.manager ((before.jiffies + timer.getD 0) % 2 ^ 32)
        ((Event.irq timer uart).bill before.manager.runningTaskIndex ran) := by
    cases timer with
    | none =>
        rw [Option.getD_none, Nat.add_zero, Nat.mod_eq_of_lt accounted.small]
        exact accounted
    | some amount => exact accounted.tick amount
  cases enter_cases enters with
  | tick timer => exact ticked timer none
  | uartIrq timer schedule => exact ticked timer (some schedule)
  | yield task calls => exact accounted
  | sleep secs task calls => exact changed fun _ => rfl
  | exit task calls => exact absurd rfl stays
  | request buf size isWriteRequest task uart calls started => exact changed fun _ => rfl
  | test task call runs has phase => exact changed fun _ => rfl
  | wait task call runs has phase => exact changed fun _ => rfl
  | finish task call size runs has phase result => exact changed fun _ => rfl

theorem accounted_step (accounted : Accounted before.manager before.jiffies ran)
    (step : before.Step event after) :
    Accounted after.manager after.jiffies (event.bill before.manager.runningTaskIndex ran) := by
  rcases step with ⟨turns, performed⟩
  rcases Option.bind_eq_some_iff.mp performed with ⟨entered, enters, performed⟩
  by_cases exits : event = .exit
  · subst exits
    rcases Option.bind_eq_some_iff.mp enters with ⟨task, _, ended⟩
    cases ended
    rcases Option.bind_eq_some_iff.mp performed with ⟨picked, picks, switched⟩
    cases switched
    apply accounted.exitRunningTask
    rw [TaskManager.exitRunningTask]
    exact Option.bind_eq_some_iff.mpr ⟨picked, picks, rfl⟩
  · have ready := accounted_enter accounted exits enters
    have stays : event.exits = false := by
      cases event with
      | exit => exact absurd rfl exits
      | _ => rfl
    split at performed
    · rcases Option.bind_eq_some_iff.mp performed with ⟨picked, picks, switched⟩
      cases switched
      rw [stays]
      exact ready.schedule (schedule_eq_switchTo picks)
    · cases performed
      exact ready

/-- An event, and what it does to the ledger. -/
def BilledStep (before : System × List Nat) (event : Event) (after : System × List Nat) : Prop :=
  before.1.Step event after.1 ∧ after.2 = event.bill before.1.manager.runningTaskIndex before.2

/-- In every run of the kernel, whatever its tasks call and whenever it is interrupted, `cputime`
answers for each task the jiffies that were counted while it ran. -/
theorem cputimes_of_reaches {kinds : List CreateFlags} {jiffies : Nat} {uart : UART}
    {events : List Event} {ran : List Nat} (some_ : kinds ≠ []) (small : jiffies < 2 ^ 32)
    (reached : Reaches BilledStep (boot kinds jiffies uart, kinds.map fun _ => 0) events
      (after, ran)) :
    after.manager.cputimes after.jiffies = ran.map (· % 2 ^ 32) := by
  have initial : Accounted (boot kinds jiffies uart).manager jiffies (kinds.map fun _ => 0) := by
    apply Accounted.startScheduler small
    rw [TaskManager.startScheduler, if_neg (by simpa using some_)]
    rfl
  have accounted := reached.invariant
    (fun billed => Accounted billed.1.manager billed.1.jiffies billed.2) initial
    fun before event after holds step => by
      rw [step.2]
      exact accounted_step holds step.1
  exact accounted.cputimes

/-- A shell and a spinning task, which runs on while the shell sleeps. -/
theorem cputimes_of_reaches_slept : Exists fun after =>
    Reaches BilledStep (boot [.CreateUserTask, .CreateKernelTask] (2 ^ 32 - 3) idleUart, [0, 0])
      [.irq (some 3) none, .sleep 1, .irq (some 5) none, .irq (some 7) none] (after, [7, 8]) ∧
    after.manager.cputimes after.jiffies = [7, 8] := by
  have shell : Reaches BilledStep
      (boot [.CreateUserTask, .CreateKernelTask] (2 ^ 32 - 3) idleUart, [0, 0])
      [.irq (some 7) none] (_, [7, 0]) := .tail .refl ⟨⟨2, rfl⟩, rfl⟩
  have spinning : Reaches BilledStep
      (boot [.CreateUserTask, .CreateKernelTask] (2 ^ 32 - 3) idleUart, [0, 0])
      [.irq (some 5) none, .irq (some 7) none] (_, [7, 5]) := .tail shell ⟨⟨2, rfl⟩, rfl⟩
  have sleeping : Reaches BilledStep
      (boot [.CreateUserTask, .CreateKernelTask] (2 ^ 32 - 3) idleUart, [0, 0])
      [.sleep 1, .irq (some 5) none, .irq (some 7) none] (_, [7, 5]) :=
    .tail spinning ⟨⟨2, rfl⟩, rfl⟩
  have slept : Reaches BilledStep
      (boot [.CreateUserTask, .CreateKernelTask] (2 ^ 32 - 3) idleUart, [0, 0])
      [.irq (some 3) none, .sleep 1, .irq (some 5) none, .irq (some 7) none] (_, [7, 8]) :=
    .tail sleeping ⟨⟨2, rfl⟩, rfl⟩
  exact ⟨_, slept, cputimes_of_reaches (by decide) (by decide) slept⟩

end System

end Kernel
end Pinyon
