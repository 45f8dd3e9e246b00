import Pinyon.Kernel.Tasks

namespace Pinyon
namespace Kernel

open Library

/-!
# The scheduler goes round

There is always a kernel task, which never waits and never exits, so the loop of
the scheduler comes to a task that can run within one round.  It stops at the
first of them, and a task that waits is one of them only if what it waits for is
finished.
-/

namespace Task

variable {task : Task} {finished : Waitable -> Bool}

/-- Whether the loop of the scheduler stops at a task. -/
def CanRunWhenInspected (finished : Waitable -> Bool) (task : Task) : Prop :=
  (task.updateState finished).canRun = true

@[simp] theorem updateState_isKernelTask :
    (task.updateState finished).isKernelTask = task.isKernelTask := by
  rw [updateState]
  split <;> rfl

@[simp] theorem updateState_call : (task.updateState finished).call = task.call := by
  rw [updateState]
  split <;> rfl

@[simp] theorem updateState_waitingFor :
    (task.updateState finished).waitingFor = task.waitingFor := by
  rw [updateState]
  split <;> rfl

theorem updateState_of_canRun (runs : task.canRun = true) : task.updateState finished = task := by
  rw [updateState, if_neg]
  rintro ⟨waits, _⟩
  simp [canRun, waits] at runs

/-- Inspecting a task that still cannot run changes nothing. -/
theorem updateState_of_not (idle : ¬task.CanRunWhenInspected finished) :
    task.updateState finished = task := by
  rw [CanRunWhenInspected] at idle
  rw [updateState] at idle ⊢
  split
  next ready => exact absurd (by simp [ready, canRun]) idle
  next => rfl

/-- A waiting task is run only when what it waits for is finished. -/
theorem CanRunWhenInspected.finished_of_waiting (runs : task.CanRunWhenInspected finished)
    (waits : task.state = .Waiting) :
    Exists fun waitable => task.waitingFor = some waitable ∧ finished waitable = true := by
  rw [CanRunWhenInspected, updateState] at runs
  split at runs
  next ready =>
      cases waits : task.waitingFor with
      | none => simp [waits] at ready
      | some waitable => exact ⟨waitable, rfl, by simpa [waits] using ready.2⟩
  next => simp [canRun, waits] at runs

end Task

namespace TaskManager

variable {manager : TaskManager} {finished : Waitable -> Bool} {turns : Nat}

/-- The task at an index can run when it is inspected. -/
def CanRunAt (manager : TaskManager) (finished : Waitable -> Bool) (index : Nat) : Prop :=
  Exists fun task => manager.tasks[index]? = some task ∧ task.CanRunWhenInspected finished

/-- Where the scheduler stops, and after how many turns. -/
def Stops (manager : TaskManager) (finished : Waitable -> Bool) (turns : Nat) : Prop :=
  Rotation.First (manager.CanRunAt finished) manager.tasks.length manager.runningTaskIndex turns

/-- What the scheduler leaves after a number of turns. -/
def pickedAfter (manager : TaskManager) (finished : Waitable -> Bool) (turns : Nat) :
    TaskManager where
  tasks := manager.tasks.modify
    (Rotation.position manager.tasks.length manager.runningTaskIndex turns)
    (Task.updateState finished)
  runningTaskIndex := Rotation.position manager.tasks.length manager.runningTaskIndex turns

/-- The loop stops when it comes to the first task that can run. -/
theorem pickNextTask_of_stops (stops : manager.Stops finished turns) {bound : Nat}
    (enough : turns ≤ bound) :
    manager.pickNextTask finished bound = some (manager.pickedAfter finished turns) := by
  induction turns generalizing manager bound with
  | zero => exact absurd stops.moved (Nat.lt_irrefl 0)
  | succ turns inductionHypothesis =>
      rcases Nat.exists_eq_succ_of_ne_zero (Nat.ne_of_gt (Nat.lt_of_lt_of_le stops.moved enough))
        with ⟨bound, rfl⟩
      have steps : Rotation.position manager.tasks.length manager.runningTaskIndex 1 =
          Rotation.next manager.tasks.length manager.runningTaskIndex := rfl
      rw [pickNextTask]
      simp only [← Rotation.next.eq_1]
      cases turns with
      | zero =>
          rcases stops.found with ⟨task, here, runs⟩
          rw [steps] at here
          simp only [here]
          rw [Task.CanRunWhenInspected] at runs
          rw [if_pos runs]
          simp [pickedAfter, steps, List.modify_eq_set_getElem?, here]
      | succ turns =>
          have idle := stops.earlier 1 Nat.one_pos (by omega)
          rw [steps] at idle
          have rest := stops.tail (Nat.succ_pos turns)
          cases here : manager.tasks[Rotation.next manager.tasks.length
              manager.runningTaskIndex]? with
          | none =>
              have outside := List.getElem?_eq_none_iff.mp here
              rcases stops.found with ⟨task, there, _⟩
              have nonempty : 0 < manager.tasks.length :=
                Nat.zero_lt_of_lt (List.getElem?_eq_some_iff.mp there).1
              have inside := Rotation.next_lt nonempty manager.runningTaskIndex
              omega
          | some task =>
              have still : ¬task.CanRunWhenInspected finished :=
                fun runs => idle ⟨task, here, runs⟩
              rcases List.getElem?_eq_some_iff.mp here with ⟨inside, there⟩
              have same : manager.tasks.set (Rotation.next manager.tasks.length
                  manager.runningTaskIndex) task = manager.tasks := by
                rw [← there]
                exact List.set_getElem_self inside
              simp only [Task.updateState_of_not still]
              rw [if_neg (by rwa [Task.CanRunWhenInspected, Task.updateState_of_not still] at still),
                same]
              have moved : TaskManager.Stops ⟨manager.tasks, Rotation.next manager.tasks.length
                  manager.runningTaskIndex⟩ finished (turns + 1) := rest
              exact inductionHypothesis moved (Nat.le_of_succ_le_succ enough)

/-- More turns make no difference. -/
theorem pickNextTask_mono {bound more : Nat} {picked : TaskManager} (enough : bound ≤ more)
    (found : manager.pickNextTask finished bound = some picked) :
    manager.pickNextTask finished more = some picked := by
  induction bound generalizing manager more with
  | zero => cases found
  | succ bound inductionHypothesis =>
      have some_ : 0 < more := Nat.lt_of_lt_of_le (Nat.succ_pos bound) enough
      rcases Nat.exists_eq_succ_of_ne_zero (Nat.ne_of_gt some_) with ⟨more, rfl⟩
      rw [pickNextTask] at found ⊢
      simp only at found ⊢
      split at found
      next => cases found
      next =>
          split at found
          next runs => rw [if_pos runs, found]
          next idle =>
              rw [if_neg idle]
              exact inductionHypothesis (Nat.le_of_succ_le_succ enough) found

/-- A kernel task is there, and each kernel task can run and makes no calls. -/
structure Spins (manager : TaskManager) : Prop where
  exists_kernel : Exists fun task => task ∈ manager.tasks ∧ task.isKernelTask = true
  free : forall task, task ∈ manager.tasks -> task.isKernelTask = true ->
    task.canRun = true ∧ task.call = none

/-- One round is enough. -/
theorem Spins.exists_stops (spins : manager.Spins) (finished : Waitable -> Bool) :
    Exists fun turns => turns ≤ manager.tasks.length ∧ manager.Stops finished turns := by
  rcases spins.exists_kernel with ⟨task, member, kernel⟩
  rcases List.getElem?_of_mem member with ⟨index, here⟩
  have runs := (spins.free task member kernel).1
  apply Rotation.exists_first _ (List.getElem?_eq_some_iff.mp here).1
  refine ⟨task, here, ?_⟩
  rw [Task.CanRunWhenInspected, Task.updateState_of_canRun runs]
  exact runs

/-- Changing a task into one of the same kind. -/
theorem Spins.modify (spins : manager.Spins) (index : Nat) {change : Task -> Task}
    (kind : forall task, (change task).isKernelTask = task.isKernelTask)
    (free : forall task, manager.tasks[index]? = some task -> task.isKernelTask = true ->
      task.canRun = true -> task.call = none ->
        (change task).canRun = true ∧ (change task).call = none) :
    (manager.modify index change).Spins := by
  constructor
  · rcases spins.exists_kernel with ⟨task, member, kernel⟩
    rcases List.getElem?_of_mem member with ⟨place, here⟩
    by_cases same : index = place
    · subst same
      refine ⟨change task, List.mem_of_getElem? (i := index) ?_, (kind task).trans kernel⟩
      simp [TaskManager.modify, here]
    · refine ⟨task, List.mem_of_getElem? (i := place) ?_, kernel⟩
      simp [TaskManager.modify, here, same]
  · intro task member kernel
    rcases List.getElem?_of_mem member with ⟨place, here⟩
    rw [TaskManager.modify, List.getElem?_modify] at here
    split at here
    next same =>
        subst same
        rcases Option.map_eq_some_iff.mp here with ⟨old, there, rfl⟩
        have wasKernel := (kind old).symm.trans kernel
        have before := spins.free old (List.mem_of_getElem? there) wasKernel
        exact free old there wasKernel before.1 before.2
    next => exact spins.free task (List.mem_of_getElem? (by simpa using here)) kernel

end TaskManager

namespace System

variable {before entered after : System} {event : Event} {turns : Nat}

/-- An event happens up to the call of the scheduler, which then switches to the
first task that can run. -/
theorem step_cases (step : before.Step event after) :
    Exists fun entered => before.enter event = some entered ∧
      (event.reschedules = false ∧ after = entered ∨
        event.reschedules = true ∧ (entered.manager.Spins ->
          Exists fun turns => turns ≤ entered.manager.tasks.length ∧
            entered.manager.Stops entered.isFinished turns ∧
            after = entered.switchTo event.exits
              (entered.manager.pickedAfter entered.isFinished turns))) := by
  rcases step with ⟨bound, performed⟩
  rw [perform] at performed
  rcases Option.bind_eq_some_iff.mp performed with ⟨entered, enters, rest⟩
  refine ⟨entered, enters, ?_⟩
  cases calls : event.reschedules with
  | false =>
      simp only [calls, Bool.false_eq_true, if_false] at rest
      exact .inl ⟨rfl, (Option.some.inj rest).symm⟩
  | true =>
      simp only [calls, if_true] at rest
      rcases Option.bind_eq_some_iff.mp rest with ⟨picked, picks, switched⟩
      refine .inr ⟨rfl, fun spins => ?_⟩
      rcases spins.exists_stops entered.isFinished with ⟨turns, round, stops⟩
      have found := TaskManager.pickNextTask_of_stops stops (Nat.le_max_left turns bound)
      rw [TaskManager.pickNextTask_mono (Nat.le_max_right turns bound) picks] at found
      cases Option.some.inj found
      exact ⟨turns, round, stops, (Option.some.inj switched).symm⟩

/-- What the scheduler relies on in front of each event. -/
structure Scheduled (system : System) : Prop where
  spins : system.manager.Spins
  inside : system.manager.runningTaskIndex < system.manager.tasks.length
  running : forall task, system.manager.runningTask = some task -> task.canRun = true
  last : forall index, system.picks.head? = some index ->
    system.manager.runningTaskIndex = index

theorem Scheduled.awake {task : Task} (scheduled : before.Scheduled)
    (runs : before.manager.runningTask = some task) : task.state ≠ .Waiting := by
  intro waits
  have canRun := scheduled.running task runs
  simp [Task.canRun, waits] at canRun

/-- What an event does to the tasks in front of the scheduler: it changes the
running task, which is a user task, or it removes it. -/
theorem enter_tasks (enters : before.enter event = some entered) :
    entered.picks = before.picks ∧
    entered.manager.runningTaskIndex = before.manager.runningTaskIndex ∧
    (entered.manager = before.manager ∧ event ≠ .exit ∨
      (Exists fun task => before.caller = some task ∧ event = .exit ∧
        entered.manager.tasks = before.manager.tasks.eraseIdx before.manager.runningTaskIndex) ∨
      Exists fun change => Exists fun task => event ≠ .exit ∧
        before.manager.runningTask = some task ∧ entered.manager =
          before.manager.modify before.manager.runningTaskIndex change ∧
        (forall other, (change other).isKernelTask = other.isKernelTask) ∧
        (task.isKernelTask = true -> task.call ≠ none) ∧
        (event.reschedules = false -> forall other, (change other).state = other.state)) := by
  cases enter_cases enters with
  | tick timer => exact ⟨rfl, rfl, .inl ⟨rfl, fun wrong => by cases wrong⟩⟩
  | uartIrq timer schedule => exact ⟨rfl, rfl, .inl ⟨rfl, fun wrong => by cases wrong⟩⟩
  | yield task calls => exact ⟨rfl, rfl, .inl ⟨rfl, fun wrong => by cases wrong⟩⟩
  | sleep secs task calls =>
      rcases caller_eq_some calls with ⟨runs, user, _⟩
      exact ⟨rfl, rfl, .inr (.inr ⟨_, task, fun wrong => (by cases wrong), runs, rfl, fun _ => rfl,
        fun kernel => absurd (user.symm.trans kernel) Bool.false_ne_true, fun wrong => by cases wrong⟩)⟩
  | exit task calls => exact ⟨rfl, rfl, .inr (.inl ⟨task, calls, rfl, rfl⟩)⟩
  | request buf size isWriteRequest task uart calls started =>
      rcases caller_eq_some calls with ⟨runs, user, _⟩
      exact ⟨rfl, rfl, .inr (.inr ⟨_, task, fun wrong => (by cases wrong), runs, rfl, fun _ => rfl,
        fun kernel => absurd (user.symm.trans kernel) Bool.false_ne_true, fun _ _ => rfl⟩)⟩
  | test task call runs has phase =>
      exact ⟨rfl, rfl, .inr (.inr ⟨_, task, fun wrong => (by cases wrong), runs, rfl, fun _ => rfl,
        fun _ => (by simp [has]), fun _ _ => rfl⟩)⟩
  | wait task call runs has phase =>
      exact ⟨rfl, rfl, .inr (.inr ⟨_, task, fun wrong => (by cases wrong), runs, rfl, fun _ => rfl,
        fun _ => (by simp [has]), fun wrong => by cases wrong⟩)⟩
  | finish task call size runs has phase result =>
      exact ⟨rfl, rfl, .inr (.inr ⟨_, task, fun wrong => (by cases wrong), runs, rfl, fun _ => rfl,
        fun _ => (by simp [has]), fun _ _ => rfl⟩)⟩

/-- The kernel tasks are out of reach of every event. -/
theorem Scheduled.enter (scheduled : before.Scheduled)
    (enters : before.enter event = some entered) : entered.manager.Spins := by
  rcases (enter_tasks enters).2.2 with ⟨same, _⟩ | ⟨task, calls, _, removed⟩ |
    ⟨change, task, _, runs, changed, kind, busy, _⟩
  · rw [same]
    exact scheduled.spins
  · rcases caller_eq_some calls with ⟨runs, user, _⟩
    constructor
    · rcases scheduled.spins.exists_kernel with ⟨other, member, kernel⟩
      refine ⟨other, ?_, kernel⟩
      rcases List.getElem?_of_mem member with ⟨place, here⟩
      rw [removed]
      apply List.mem_eraseIdx_iff_getElem?.mpr
      refine ⟨place, fun same => ?_, here⟩
      rw [TaskManager.runningTask, ← same, here] at runs
      cases Option.some.inj runs
      exact absurd (user.symm.trans kernel) Bool.false_ne_true
    · intro other member
      rw [removed] at member
      exact scheduled.spins.free other (List.mem_of_mem_eraseIdx member)
  · rw [changed]
    apply scheduled.spins.modify _ kind
    intro other here kernel _ free
    cases Option.some.inj (here.symm.trans runs)
    exact absurd free (busy kernel)

/-! ## The switch -/

@[simp] theorem switchTo_runningTaskIndex (exits : Bool) (picked : TaskManager) :
    (entered.switchTo exits picked).manager.runningTaskIndex = picked.runningTaskIndex := by
  rw [switchTo]
  simp only
  split
  · rfl
  · split <;> rfl

/-- The switch changes the accounts of the task that is left and of the one that
is picked, which is set running. -/
theorem switchTo_tasks (exits : Bool) (picked : TaskManager) {index : Nat} {task : Task}
    (here : picked.tasks[index]? = some task) :
    Exists fun changed => (entered.switchTo exits picked).manager.tasks[index]? = some changed ∧
      changed.isKernelTask = task.isKernelTask ∧ changed.call = task.call ∧
      changed.waitingFor = task.waitingFor ∧
      (changed.state = task.state ∨ index = picked.runningTaskIndex ∧ changed.state = .Runnable) := by
  rw [switchTo]
  simp only
  split
  · by_cases same : picked.runningTaskIndex = index
    · refine ⟨task.start entered.jiffies, ?_, rfl, rfl, rfl, .inr ⟨same.symm, rfl⟩⟩
      simp [TaskManager.modify, same, here]
    · refine ⟨task, ?_, rfl, rfl, rfl, .inl rfl⟩
      simp [TaskManager.modify, same, here]
  · split
    · exact ⟨task, here, rfl, rfl, rfl, .inl rfl⟩
    · next other =>
        by_cases same : picked.runningTaskIndex = index
        · refine ⟨task.start entered.jiffies, ?_, rfl, rfl, rfl, .inr ⟨same.symm, rfl⟩⟩
          have left : entered.manager.runningTaskIndex ≠ index := fun left =>
            other (same.trans left.symm)
          simp [TaskManager.modify, same, here, left]
        · by_cases left : entered.manager.runningTaskIndex = index
          · refine ⟨task.charge entered.jiffies, ?_, rfl, rfl, rfl, .inl rfl⟩
            simp [TaskManager.modify, same, here, left]
          · refine ⟨task, ?_, rfl, rfl, rfl, .inl rfl⟩
            simp [TaskManager.modify, same, here, left]

@[simp] theorem switchTo_length (exits : Bool) (picked : TaskManager) :
    (entered.switchTo exits picked).manager.tasks.length = picked.tasks.length := by
  rw [switchTo]
  simp only
  split
  · simp [TaskManager.modify]
  · split <;> simp [TaskManager.modify]

/-- What the scheduler does to a task: only the picked one is set running, which
it can be. -/
theorem tasks_of_stops (exits : Bool) {manager : TaskManager}
    (stops : manager.Stops entered.isFinished turns) {index : Nat} {task : Task}
    (here : manager.tasks[index]? = some task) :
    Exists fun changed =>
      (entered.switchTo exits (manager.pickedAfter entered.isFinished turns)).manager.tasks[index]? =
        some changed ∧
      changed.isKernelTask = task.isKernelTask ∧ changed.call = task.call ∧
      changed.waitingFor = task.waitingFor ∧
      (index ≠ (manager.pickedAfter entered.isFinished turns).runningTaskIndex ∧
          changed.state = task.state ∨
        index = (manager.pickedAfter entered.isFinished turns).runningTaskIndex ∧
          changed.canRun = true ∧ task.CanRunWhenInspected entered.isFinished) := by
  by_cases same : index = (manager.pickedAfter entered.isFinished turns).runningTaskIndex
  · rcases stops.found with ⟨other, there, runs⟩
    have position : index = Rotation.position manager.tasks.length manager.runningTaskIndex turns :=
      same
    rw [← position, here] at there
    cases Option.some.inj there
    have inspected : (manager.pickedAfter entered.isFinished turns).tasks[index]? =
        some (task.updateState entered.isFinished) := by
      simp [TaskManager.pickedAfter, ← position, here]
    rcases switchTo_tasks exits _ inspected with ⟨changed, at_, kind, call, waits, state⟩
    refine ⟨changed, at_, kind.trans Task.updateState_isKernelTask, call.trans Task.updateState_call,
      waits.trans Task.updateState_waitingFor, .inr ⟨same, ?_, runs⟩⟩
    rcases state with still | ⟨_, set⟩
    · rwa [Task.canRun, still]
    · simp [Task.canRun, set]
  · have untouched : (manager.pickedAfter entered.isFinished turns).tasks[index]? = some task := by
      have other : Rotation.position manager.tasks.length manager.runningTaskIndex turns ≠ index :=
        Ne.symm same
      simp [TaskManager.pickedAfter, other, here]
    rcases switchTo_tasks exits _ untouched with ⟨changed, at_, kind, call, waits, state⟩
    refine ⟨changed, at_, kind, call, waits, .inl ⟨same, ?_⟩⟩
    rcases state with still | ⟨wrong, _⟩
    · exact still
    · exact absurd wrong same

theorem spins_of_stops (exits : Bool) (spins : entered.manager.Spins)
    (stops : entered.manager.Stops entered.isFinished turns) :
    (entered.switchTo exits
      (entered.manager.pickedAfter entered.isFinished turns)).manager.Spins := by
  constructor
  · rcases spins.exists_kernel with ⟨task, member, kernel⟩
    rcases List.getElem?_of_mem member with ⟨index, here⟩
    rcases tasks_of_stops exits stops here with ⟨changed, there, kind, _⟩
    exact ⟨changed, List.mem_of_getElem? there, kind.trans kernel⟩
  · intro changed member kernel
    rcases List.getElem?_of_mem member with ⟨index, there⟩
    have inside : index < entered.manager.tasks.length := by
      have below := (List.getElem?_eq_some_iff.mp there).1
      simpa [TaskManager.pickedAfter] using below
    have here := List.getElem?_eq_getElem inside
    rcases tasks_of_stops exits stops here with ⟨other, same, kind, call, _, state⟩
    cases Option.some.inj (there.symm.trans same)
    have before := spins.free _ (List.mem_of_getElem? here) (kind.symm.trans kernel)
    refine ⟨?_, call.trans before.2⟩
    rcases state with ⟨_, still⟩ | ⟨_, runs, _⟩
    · rw [Task.canRun, still]
      exact before.1
    · exact runs

/-- Every event keeps what the scheduler relies on. -/
theorem Scheduled.step (scheduled : before.Scheduled) (step : before.Step event after) :
    after.Scheduled := by
  rcases step_cases step with ⟨entered, enters, ⟨calls, rfl⟩ | ⟨_, switches⟩⟩
  · have spins := scheduled.enter enters
    rcases enter_tasks enters with ⟨picks, index, tasks⟩
    have last : forall place, after.picks.head? = some place ->
        after.manager.runningTaskIndex = place := by
      rw [picks, index]
      exact scheduled.last
    rcases tasks with ⟨same, _⟩ | ⟨_, _, exits, _⟩ | ⟨change, task, _, runs, changed, _, _, state⟩
    · refine ⟨spins, ?_, ?_, last⟩ <;> rw [same]
      · exact scheduled.inside
      · exact scheduled.running
    · subst exits
      exact absurd calls (by decide)
    · refine ⟨spins, ?_, ?_, last⟩
      · rw [changed]
        simpa [TaskManager.modify] using scheduled.inside
      · intro other here
        rw [changed, TaskManager.runningTask] at here
        rw [TaskManager.runningTask] at runs
        simp only [TaskManager.modify, List.getElem?_modify_eq, runs] at here
        cases Option.some.inj here
        rw [Task.canRun, state calls]
        exact scheduled.running task runs
  · rcases switches (scheduled.enter enters) with ⟨turns, round, stops, rfl⟩
    have nonempty : 0 < entered.manager.tasks.length :=
      Nat.lt_of_lt_of_le stops.moved round
    have inside : Rotation.position entered.manager.tasks.length entered.manager.runningTaskIndex
        turns < entered.manager.tasks.length := Rotation.position_lt nonempty stops.moved
    refine ⟨spins_of_stops _ (scheduled.enter enters) stops, ?_, ?_, ?_⟩
    · simpa [TaskManager.pickedAfter] using inside
    · intro task runs
      rcases stops.found with ⟨picked, here, _⟩
      rcases tasks_of_stops event.exits stops here with ⟨changed, there, _, _, _, state⟩
      rw [TaskManager.runningTask, switchTo_runningTaskIndex] at runs
      cases Option.some.inj (runs.symm.trans there)
      rcases state with ⟨wrong, _⟩ | ⟨_, canRun, _⟩
      · exact absurd rfl wrong
      · exact canRun
    · intro index head
      rw [switchTo_runningTaskIndex]
      exact Option.some.inj head

theorem scheduled_boot {kinds : List CreateFlags} (spin : .CreateKernelTask ∈ kinds)
    (jiffies : Nat) (uart : UART) : (boot kinds jiffies uart).Scheduled := by
  have spins : TaskManager.Spins { tasks := kinds.map Task.create, runningTaskIndex := 0 } := by
    constructor
    · exact ⟨_, List.mem_map_of_mem spin, rfl⟩
    · intro task member _
      rcases List.mem_map.mp member with ⟨flags, _, rfl⟩
      exact ⟨rfl, rfl⟩
  have nonempty : 0 < kinds.length := List.length_pos_of_mem spin
  refine ⟨spins.modify 0 (fun _ => rfl) fun _ _ _ _ free => ⟨rfl, free⟩, ?_, ?_,
    fun _ wrong => by cases wrong⟩
  · simpa [boot, TaskManager.modify] using nonempty
  · intro task here
    rcases List.exists_cons_of_length_pos nonempty with ⟨flags, rest, rfl⟩
    cases Option.some.inj here
    rfl

/-! ## Fairness -/

/-- No task exits, and if the scheduler is called then this one can run. -/
def StaysRunnable (index : Nat) (before : System) (event : Event) : Prop :=
  event ≠ .exit ∧ forall entered, before.enter event = some entered ->
    event.reschedules = true -> entered.manager.CanRunAt entered.isFinished index

theorem length_of_enter (enters : before.enter event = some entered) (stays : event ≠ .exit) :
    entered.manager.tasks.length = before.manager.tasks.length := by
  rcases (enter_tasks enters).2.2 with ⟨same, _⟩ | ⟨_, _, exits, _⟩ | ⟨_, _, _, _, changed, _⟩
  · rw [same]
  · exact absurd exits stays
  · rw [changed]
    exact List.length_modify ..

/-- The picks since a task was picked: another one that can run throughout is
among them, or the round has not come to it. -/
def Rounding (length origin target : Nat) (old : List Nat) (system : System) : Prop :=
  system.Scheduled ∧ system.manager.tasks.length = length ∧
    Exists fun since => system.picks = since ++ old ∧
      (target ∈ since ∨ origin ∉ since ∧
        Rotation.Before length origin target system.manager.runningTaskIndex)

theorem Rounding.step {length origin target : Nat} {old : List Nat} (within : origin < length)
    (rounding : before.Rounding length origin target old)
    (stays : before.StaysRunnable target event) (step : before.Step event after) :
    after.Rounding length origin target old := by
  rcases rounding with ⟨scheduled, length_eq, since, picks, where_⟩
  refine ⟨scheduled.step step, ?_⟩
  rcases step_cases step with ⟨entered, enters, ⟨_, rfl⟩ | ⟨calls, switches⟩⟩
  · refine ⟨(length_of_enter enters stays.1).trans length_eq, since, ?_, ?_⟩
    · rw [(enter_tasks enters).1, picks]
    · rwa [(enter_tasks enters).2.1]
  · rcases switches (scheduled.enter enters) with ⟨turns, _, stops, rfl⟩
    have sameLength := (length_of_enter enters stays.1).trans length_eq
    refine ⟨by simpa [TaskManager.pickedAfter] using sameLength,
      (entered.manager.pickedAfter entered.isFinished turns).runningTaskIndex :: since, ?_, ?_⟩
    · rw [List.cons_append, ← picks, ← (enter_tasks enters).1]
      rfl
    · rcases where_ with among | ⟨notBack, behind⟩
      · exact .inl (List.mem_cons_of_mem _ among)
      · rw [← (enter_tasks enters).2.1] at behind
        have searched := stops
        rw [TaskManager.Stops, sameLength] at searched
        have picked : (entered.manager.pickedAfter entered.isFinished turns).runningTaskIndex =
            Rotation.position length entered.manager.runningTaskIndex turns := by
          rw [← sameLength]
          rfl
        rw [switchTo_runningTaskIndex, picked]
        rcases behind.search within searched (stays.2 entered enters calls) with
          reached | ⟨further, different⟩
        · left
          rw [reached]
          exact List.mem_cons_self
        · refine .inr ⟨fun back => ?_, further⟩
          rcases List.mem_cons.mp back with same | earlier
          · exact different same.symm
          · exact notBack earlier

/-- Between two picks of a task every other task is picked that could run all
the time. -/
theorem picked_between {events : List Event} {final : System} {origin target : Nat}
    {old between : List Nat} (scheduled : before.Scheduled)
    (picked : before.picks = origin :: old) (inside : target < before.manager.tasks.length)
    (different : target ≠ origin)
    (reached : Reaches (guarded Step (StaysRunnable target)) before events final)
    (again : final.picks = origin :: (between ++ origin :: old)) : target ∈ between := by
  have here : before.manager.runningTaskIndex = origin := scheduled.last origin (by rw [picked]; rfl)
  have within : origin < before.manager.tasks.length := here ▸ scheduled.inside
  have begins : before.Rounding before.manager.tasks.length origin target (origin :: old) := by
    refine ⟨scheduled, rfl, [], picked, .inr ⟨List.not_mem_nil, ?_⟩⟩
    rw [here]
    exact Rotation.before_self within inside different
  have ends := reached.guarded_invariant
    (Rounding before.manager.tasks.length origin target (origin :: old)) begins
    fun _ _ _ rounding stays step => rounding.step within stays step
  rcases ends with ⟨_, _, since, picks, where_⟩
  have both : since ++ origin :: old = (origin :: between) ++ origin :: old := by
    rw [← picks, again, List.cons_append]
  have split : since = origin :: between := List.append_cancel_right both
  rw [split] at where_
  rcases where_ with among | ⟨notBack, _⟩
  · exact (List.mem_cons.mp among).resolve_left different
  · exact absurd List.mem_cons_self notBack

/-- A task that waits goes on waiting, unless what it waits for is finished and
the scheduler switches to it. -/
def GoesOnWaiting (entered after : System) : Prop :=
  forall index task, entered.manager.tasks[index]? = some task -> task.state = .Waiting ->
    Exists fun changed => after.manager.tasks[index]? = some changed ∧
      changed.waitingFor = task.waitingFor ∧
      (changed.state = .Waiting ∧ after.manager.runningTaskIndex ≠ index ∨
        after.manager.runningTaskIndex = index ∧ Exists fun waitable =>
          task.waitingFor = some waitable ∧ entered.isFinished waitable = true)

theorem goesOnWaiting_of_stops (exits : Bool)
    (stops : entered.manager.Stops entered.isFinished turns) :
    entered.GoesOnWaiting (entered.switchTo exits
      (entered.manager.pickedAfter entered.isFinished turns)) := by
  intro index task here waits
  rcases tasks_of_stops exits stops here with ⟨changed, there, _, _, waitingFor, state⟩
  refine ⟨changed, there, waitingFor, ?_⟩
  rw [switchTo_runningTaskIndex]
  rcases state with ⟨other, still⟩ | ⟨same, _, runs⟩
  · exact .inl ⟨still.trans waits, Ne.symm other⟩
  · exact .inr ⟨same.symm, runs.finished_of_waiting waits⟩

/-- The scheduler finds the first task that can run within one round; a task
that waits is resumed only when what it waits for is finished; and between two
picks of a task every other one is picked that could run all the time. -/
theorem scheduler_finds_task {kinds : List CreateFlags} {jiffies : Nat} {uart : UART}
    {events : List Event} (spin : .CreateKernelTask ∈ kinds)
    (reached : Reaches Step (boot kinds jiffies uart) events before) :
    (forall event entered, before.enter event = some entered -> event.reschedules = true ->
      Exists fun turns => turns ≤ entered.manager.tasks.length ∧
        entered.manager.Stops entered.isFinished turns ∧
        forall bound, turns ≤ bound ->
          entered.manager.pickNextTask entered.isFinished bound =
            some (entered.manager.pickedAfter entered.isFinished turns)) ∧
    (forall event entered after, before.enter event = some entered ->
      event.reschedules = true -> before.Step event after -> entered.GoesOnWaiting after) ∧
    (forall task, before.manager.runningTask = some task -> task.state ≠ .Waiting) ∧
    (forall origin target old between later final, before.picks = origin :: old ->
      target < before.manager.tasks.length -> target ≠ origin ->
      Reaches (guarded Step (StaysRunnable target)) before later final ->
      final.picks = origin :: (between ++ origin :: old) -> target ∈ between) := by
  have scheduled := reached.invariant Scheduled (scheduled_boot spin jiffies uart)
    fun _ _ _ scheduled step => scheduled.step step
  refine ⟨?_, ?_, ?_, ?_⟩
  · intro event entered enters _
    rcases (scheduled.enter enters).exists_stops entered.isFinished with ⟨turns, round, stops⟩
    exact ⟨turns, round, stops, fun _ enough => TaskManager.pickNextTask_of_stops stops enough⟩
  · intro event entered after enters calls step
    rcases step_cases step with ⟨other, entersToo, ⟨idle, _⟩ | ⟨_, switches⟩⟩
    · exact absurd (idle.symm.trans calls) Bool.false_ne_true
    · cases Option.some.inj (enters.symm.trans entersToo)
      rcases switches (scheduled.enter enters) with ⟨turns, _, stops, rfl⟩
      exact goesOnWaiting_of_stops _ stops
  · exact fun task runs => scheduled.awake runs
  · intro origin target old between later final picked inside different run again
    exact picked_between scheduled picked inside different run again

/-- A UART that nothing has been requested of. -/
def idleUart : UART where
  registers := { receive := ⟨[], []⟩, transmit := { depth := 16, occupied := 0 } }
  request := {}
  memory := fun _ => 0

/-- The shell sleeps for a second, and is picked again behind the spin task when
eight jiffies have gone by. -/
theorem scheduler_finds_shell :
    Exists fun before =>
      Reaches Step (boot [.CreateUserTask, .CreateKernelTask] 0 idleUart)
        [.irq (some 1) none, .irq (some 7) none, .sleep 1] before ∧
      before.picks = [0, 1, 1] ∧
      forall task, before.manager.runningTask = some task -> task.state ≠ .Waiting := by
  have reached : Reaches Step (boot [.CreateUserTask, .CreateKernelTask] 0 idleUart)
      [.irq (some 1) none, .irq (some 7) none, .sleep 1] _ :=
    .tail (.tail (.tail .refl ⟨2, rfl⟩) ⟨2, rfl⟩) ⟨2, rfl⟩
  exact ⟨_, reached, rfl, (scheduler_finds_task (by decide) reached).2.2.1⟩

end System

end Kernel
end Pinyon
