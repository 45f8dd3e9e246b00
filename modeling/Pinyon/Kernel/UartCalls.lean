import Pinyon.Kernel.SchedulerRounds

namespace Pinyon
namespace Kernel

open Library

/-!
# Calls of the UART file

All calls share one request.  A call that has waited is resumed when the shared
request is finished, which by then may be the request of another call that came
in between.  A call gets what is its own as long as no call makes its request
while another one is on its way from its request to its return.
-/

namespace System

variable {before entered after : System} {event : Event} {turns : Nat}

/-- Whether a request is finished.  The shared one is only replaced when it is,
so an earlier request is. -/
def RequestFinished (system : System) (number : Nat) : Prop :=
  number < system.requests ∨
    number = system.requests ∧ system.uart.request.isFinished = true

/-- A call behind its wait finds its own request finished and is not in for a
panic, and every call has returned what its own request has transferred. -/
def CallsGetTheirOwn (system : System) : Prop :=
  (forall call, system.runningCall .waited = some call ->
    system.RequestFinished call.number ∧ system.uart.result ≠ none) ∧
  forall number size, (number, size) ∈ system.returned -> size = system.transferred number

/-- A call makes its request when no task is inside a call. -/
def RequestsAlone (before : System) : Event -> Prop
  | .request _ _ _ => forall task, task ∈ before.manager.tasks -> task.call = none
  | _ => True

/-- A task in a call has made the shared request, waits for it or has not waited
yet, or finds it finished. -/
structure OwnsRequest (system : System) (task : Task) (call : UARTCall) : Prop where
  current : call.number = system.requests
  waits : task.state = .Waiting -> task.waitingFor = some .uartRequest
  done : task.state ≠ .Waiting -> call.phase = .waited -> system.uart.request.isFinished = true

/-- What holds as long as requests are made alone. -/
structure Owned (system : System) : Prop where
  calls : forall task, task ∈ system.manager.tasks -> forall call, task.call = some call ->
    system.OwnsRequest task call
  counted : system.transferred system.requests = system.uart.request.size
  returned : forall number size, (number, size) ∈ system.returned ->
    size = system.transferred number ∧ number ≤ system.requests ∧
      (number = system.requests -> system.uart.request.isFinished = true)

theorem OwnsRequest.congr {task : Task} {call : UARTCall} (owns : before.OwnsRequest task call)
    (requests : after.requests = before.requests)
    (finished : before.uart.request.isFinished = true -> after.uart.request.isFinished = true) :
    after.OwnsRequest task call where
  current := owns.current.trans requests.symm
  waits := owns.waits
  done := fun awake waited => finished (owns.done awake waited)

/-- An interrupt leaves a finished request finished and counts what it moves for
the other one. -/
theorem Owned.uartIrq (owned : before.Owned) (schedule : List Meanwhile) :
    (before.handleUartIrq schedule).Owned := by
  have still : before.uart.request.isFinished = true ->
      (before.uart.handleIrq schedule).request = before.uart.request :=
    fun finished => (UART.handleIrq_finished finished schedule).1
  constructor
  · intro task member call has
    refine (owned.calls task member call has).congr rfl fun finished => ?_
    rw [handleUartIrq]
    simp only [still finished]
    exact finished
  · exact Function.update_self ..
  · intro number size member
    rcases owned.returned number size member with ⟨same, known, finished⟩
    by_cases current : number = before.requests
    · subst current
      have done := finished rfl
      rw [handleUartIrq]
      simp only [Function.update_self, still done]
      exact ⟨same.trans owned.counted, Nat.le_refl _, fun _ => done⟩
    · refine ⟨?_, known, fun wrong => absurd wrong current⟩
      rw [handleUartIrq]
      simp only [Function.update_of_ne current]
      exact same

/-- Changing the running task, with the request left alone. -/
theorem Owned.modifyRunning (owned : before.Owned) {change : Task -> Task}
    (owns : forall task call, before.manager.runningTask = some task ->
      (change task).call = some call -> before.OwnsRequest (change task) call) :
    (before.modifyRunning change).Owned where
  counted := owned.counted
  returned := owned.returned
  calls := by
    intro task member call has
    rcases List.getElem?_of_mem member with ⟨index, here⟩
    simp only [System.modifyRunning, TaskManager.modify, List.getElem?_modify] at here
    split at here
    next same =>
        subst same
        rcases Option.map_eq_some_iff.mp here with ⟨old, there, rfl⟩
        exact (owns old call there has).congr rfl id
    next =>
        have there : before.manager.tasks[index]? = some task := by simpa using here
        exact (owned.calls task (List.mem_of_getElem? there) call has).congr rfl id

theorem Owned.enter (owned : before.Owned) (scheduled : before.Scheduled)
    (alone : before.RequestsAlone event) (enters : before.enter event = some entered) :
    entered.Owned := by
  have ownsRunning : forall task call, before.manager.runningTask = some task ->
      task.call = some call -> before.OwnsRequest task call :=
    fun task call runs has => owned.calls task (List.mem_of_getElem? runs) call has
  have awake : forall task, before.manager.runningTask = some task -> task.state ≠ .Waiting :=
    fun task runs => scheduled.awake runs
  have ticked (timer : Option Nat) :
      Owned { before with jiffies := (before.jiffies + timer.getD 0) % 2 ^ 32 } :=
    ⟨fun task member call has => (owned.calls task member call has).congr rfl id,
      owned.counted, owned.returned⟩
  cases enter_cases enters with
  | tick timer => exact ticked timer
  | uartIrq timer schedule => exact (ticked timer).uartIrq schedule
  | yield task calls => exact owned
  | sleep secs task calls =>
      rcases caller_eq_some calls with ⟨runs, _, free⟩
      apply owned.modifyRunning
      intro other call same has
      cases Option.some.inj (runs.symm.trans same)
      exact absurd (free.symm.trans has) (Option.some_ne_none call).symm
  | exit task calls =>
      refine ⟨fun other member call has => ?_, owned.counted, owned.returned⟩
      exact (owned.calls other (List.mem_of_mem_eraseIdx member) call has).congr rfl id
  | request buf size isWriteRequest task uart calls started =>
      have fresh : uart.request.size = 0 := by
        rw [UART.start] at started
        split at started
        next => cases Option.some.inj started; rfl
        next => cases started
      have asked : Owned { before with
          uart := uart
          requests := before.requests + 1
          transferred := Function.update before.transferred (before.requests + 1) 0 } := by
        refine ⟨fun other member call has => ?_, ?_, fun number size member => ?_⟩
        · exact absurd ((alone other member).symm.trans has) (Option.some_ne_none call).symm
        · simp only [Function.update_self, fresh]
        · rcases owned.returned number size member with ⟨same, known, _⟩
          have earlier : number ≠ before.requests + 1 := by omega
          simp only [Function.update_of_ne earlier]
          exact ⟨same, Nat.le_succ_of_le known, fun wrong => absurd wrong earlier⟩
      apply asked.modifyRunning
      intro other call runs has
      cases Option.some.inj has
      exact ⟨rfl, fun waits => absurd waits (awake other runs), fun _ wrong => by cases wrong⟩
  | test task call runs has phase =>
      apply owned.modifyRunning
      intro other moved same is
      cases Option.some.inj (runs.symm.trans same)
      cases Option.some.inj is
      refine ⟨(ownsRunning task call runs has).current, fun waits => absurd waits (awake task runs),
        fun _ waited => ?_⟩
      simp only at waited
      split at waited
      next finished => exact finished
      next => cases waited
  | wait task call runs has phase =>
      apply owned.modifyRunning
      intro other moved same is
      cases Option.some.inj (runs.symm.trans same)
      cases Option.some.inj is
      exact ⟨(ownsRunning task call runs has).current, fun _ => rfl, fun wrong => absurd rfl wrong⟩
  | finish task call size runs has waited result =>
      have owns := ownsRunning task call runs has
      have finished := owns.done (awake task runs) waited
      rw [UART.result, if_pos finished] at result
      cases Option.some.inj result
      have noted : Owned { before with
          returned := (call.number, before.uart.request.size) :: before.returned } := by
        refine ⟨fun other member call has => (owned.calls other member call has).congr rfl id,
          owned.counted, fun number size member => ?_⟩
        rcases List.mem_cons.mp member with same | earlier
        · cases same
          refine ⟨?_, Nat.le_of_eq owns.current, fun _ => finished⟩
          rw [owns.current]
          exact owned.counted.symm
        · exact owned.returned number size earlier
      exact noted.modifyRunning fun _ _ _ wrong => by cases wrong

/-- The task that the scheduler switches to finds its request finished. -/
theorem Owned.switch (owned : entered.Owned) (exits : Bool)
    (stops : entered.manager.Stops entered.isFinished turns) :
    (entered.switchTo exits (entered.manager.pickedAfter entered.isFinished turns)).Owned where
  counted := owned.counted
  returned := owned.returned
  calls := by
    intro changed member call has
    rcases List.getElem?_of_mem member with ⟨index, there⟩
    have inside : index < entered.manager.tasks.length := by
      have below := (List.getElem?_eq_some_iff.mp there).1
      simpa [TaskManager.pickedAfter] using below
    have here := List.getElem?_eq_getElem inside
    rcases tasks_of_stops exits stops here with ⟨other, same, _, sameCall, waitingFor, state⟩
    cases Option.some.inj (there.symm.trans same)
    have owns := owned.calls _ (List.mem_of_getElem? here) call (sameCall.symm.trans has)
    rcases state with ⟨_, still⟩ | ⟨_, canRun, inspected⟩
    · exact ⟨owns.current, fun waits => waitingFor.trans (owns.waits (still.symm.trans waits)),
        fun awake waited => owns.done (fun waits => awake (still.trans waits)) waited⟩
    · refine ⟨owns.current, fun waits => ?_, fun _ waited => ?_⟩
      · simp [Task.canRun, waits] at canRun
      · by_cases slept : entered.manager.tasks[index].state = .Waiting
        · rcases inspected.finished_of_waiting slept with ⟨waitable, awaited, finished⟩
          cases Option.some.inj ((owns.waits slept).symm.trans awaited)
          exact finished
        · exact owns.done slept waited

theorem Owned.step (owned : before.Owned) (scheduled : before.Scheduled)
    (alone : before.RequestsAlone event) (step : before.Step event after) : after.Owned := by
  rcases step_cases step with ⟨entered, enters, ⟨_, rfl⟩ | ⟨_, switches⟩⟩
  · exact owned.enter scheduled alone enters
  · rcases switches (scheduled.enter enters) with ⟨turns, _, stops, rfl⟩
    exact (owned.enter scheduled alone enters).switch event.exits stops

theorem Owned.callsGetTheirOwn (owned : before.Owned) (scheduled : before.Scheduled) :
    before.CallsGetTheirOwn := by
  refine ⟨fun call calls => ?_, fun number size member => (owned.returned number size member).1⟩
  rcases runningCall_eq_some calls with ⟨task, runs, has, waited⟩
  have owns := owned.calls task (List.mem_of_getElem? runs) call has
  have finished := owns.done (scheduled.awake runs) waited
  refine ⟨.inr ⟨owns.current, finished⟩, ?_⟩
  rw [UART.result, if_pos finished]
  exact Option.some_ne_none _

theorem owned_boot (kinds : List CreateFlags) (jiffies : Nat) {uart : UART}
    (unused : uart.request = {}) : (boot kinds jiffies uart).Owned := by
  refine ⟨fun task member call has => ?_, by rw [boot, unused], fun _ _ wrong => by cases wrong⟩
  rcases List.getElem?_of_mem member with ⟨index, here⟩
  have free : task.call = none := by
    simp only [boot, TaskManager.modify, List.getElem?_modify, List.getElem?_map] at here
    cases kind : kinds[index]? with
    | none => simp [kind] at here
    | some flags =>
        simp only [kind, Option.map_some] at here
        split at here <;> cases Option.some.inj here <;> rfl
  exact absurd (free.symm.trans has) (Option.some_ne_none call).symm

/-- In every run in which calls make their requests alone, each call finds its
own request finished behind its wait and returns what it has transferred. -/
theorem calls_get_their_own {kinds : List CreateFlags} {jiffies : Nat} {uart : UART}
    {events : List Event} {final : System} (spin : .CreateKernelTask ∈ kinds)
    (unused : uart.request = {})
    (reached : Reaches (guarded Step RequestsAlone) (boot kinds jiffies uart) events final) :
    final.CallsGetTheirOwn := by
  have both := reached.guarded_invariant (fun system => system.Scheduled ∧ system.Owned)
    ⟨scheduled_boot spin jiffies uart, owned_boot kinds jiffies unused⟩
    fun _ _ _ sound alone step => ⟨sound.1.step step, sound.2.step sound.1 alone step⟩
  exact both.2.callsGetTheirOwn both.1

/-- One task reads a character that comes in while the spin task runs. -/
theorem calls_get_their_own_read :
    Exists fun final =>
      Reaches (guarded Step RequestsAlone)
        (boot [.CreateUserTask, .CreateKernelTask] 0 idleUart)
        [.finish, .irq (some 1) none, .irq none (some [{ arrived := [120] }]), .wait, .test,
          .request 0 1 false] final ∧
      final.returned = [(1, 1)] ∧ final.CallsGetTheirOwn := by
  have alone : RequestsAlone (boot [.CreateUserTask, .CreateKernelTask] 0 idleUart)
      (.request 0 1 false) := by
    intro task member
    simp only [boot, TaskManager.modify] at member
    revert task
    decide
  have reached : Reaches (guarded Step RequestsAlone)
      (boot [.CreateUserTask, .CreateKernelTask] 0 idleUart)
      [.finish, .irq (some 1) none, .irq none (some [{ arrived := [120] }]), .wait, .test,
        .request 0 1 false] _ :=
    .tail (.tail (.tail (.tail (.tail (.tail .refl ⟨alone, 1, rfl⟩) ⟨trivial, 1, rfl⟩)
      ⟨trivial, 2, rfl⟩) ⟨trivial, 1, rfl⟩) ⟨trivial, 2, rfl⟩) ⟨trivial, 1, rfl⟩
  exact ⟨_, reached, rfl, calls_get_their_own (by decide) rfl reached⟩

/-- The first task reads one character.  Before it is resumed, the second one
requests three and gets two, which the first call returns as its own. -/
theorem call_returns_other_size :
    Exists fun final =>
      Reaches Step (boot [.CreateUserTask, .CreateUserTask, .CreateKernelTask] 0 idleUart)
        [.finish, .irq (some 1) none, .irq none (some [{ arrived := [121, 122, 10] }]),
          .wait, .test, .request 100 3 false, .irq none (some [{ arrived := [120] }]),
          .wait, .test, .request 0 1 false] final ∧
      (1, 2) ∈ final.returned ∧ final.transferred 1 = 1 ∧ ¬final.CallsGetTheirOwn := by
  have reached : Reaches Step
      (boot [.CreateUserTask, .CreateUserTask, .CreateKernelTask] 0 idleUart)
      [.finish, .irq (some 1) none, .irq none (some [{ arrived := [121, 122, 10] }]),
        .wait, .test, .request 100 3 false, .irq none (some [{ arrived := [120] }]),
        .wait, .test, .request 0 1 false] _ :=
    .tail (.tail (.tail (.tail (.tail (.tail (.tail (.tail (.tail (.tail .refl
      ⟨1, rfl⟩) ⟨1, rfl⟩) ⟨2, rfl⟩) ⟨1, rfl⟩) ⟨1, rfl⟩) ⟨1, rfl⟩) ⟨2, rfl⟩) ⟨1, rfl⟩)
      ⟨2, rfl⟩) ⟨1, rfl⟩
  exact ⟨_, reached, List.mem_cons_self, rfl,
    fun own => absurd (own.2 1 2 List.mem_cons_self) (by decide)⟩

end System

end Kernel
end Pinyon
