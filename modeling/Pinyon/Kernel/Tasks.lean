import Pinyon.Library.Rotation
import Pinyon.Kernel.Uart

namespace Pinyon
namespace Kernel

open Library

/-!
# Tasks and the task manager

The kernel switches between tasks when the timer interrupts, and when a task
yields, exits or waits for something.  A task inside a call of `UARTFile::read`
or `UARTFile::write` can be preempted at every point of it, so the call is cut
into the parts that other tasks and interrupts can get in between.
-/

inductive CreateFlags where
  | CreateUserTask
  | CreateKernelTask
deriving DecidableEq, Repr

inductive TaskState where
  | New
  | Runnable
  | Waiting
deriving DecidableEq, Repr

/-- What a task can wait for. -/
inductive Waitable where
  | sleepWaitable (sleepEndTime : Nat)
  | uartRequest
deriving DecidableEq, Repr

/-- Where a task is in a call of `UARTFile`: behind making the request, behind
finding that it is not finished, or behind the wait. -/
inductive Phase where
  | requested
  | aboutToWait
  | waited
deriving DecidableEq, Repr

/-- A call of `UARTFile`, with the number of the request that it made. -/
structure UARTCall where
  number : Nat
  phase : Phase
deriving DecidableEq, Repr

structure Task where
  isKernelTask : Bool
  state : TaskState := .New
  waitingFor : Option Waitable := none
  jiffiesWhenScheduled : Nat := 0
  cpuJiffies : Nat := 0
  /-- The call that the kernel stack is in the middle of. -/
  call : Option UARTCall := none
deriving DecidableEq, Repr

namespace Task

def create (flags : CreateFlags) : Task where
  isKernelTask := flags = .CreateKernelTask

def canRun (task : Task) : Bool :=
  task.state = .New ∨ task.state = .Runnable

def updateState (finished : Waitable -> Bool) (task : Task) : Task :=
  if task.state = .Waiting ∧ task.waitingFor.any finished then { task with state := .Runnable }
  else task

/-- `start`, short of the switch itself. -/
def start (jiffies : Nat) (task : Task) : Task :=
  { task with state := .Runnable, jiffiesWhenScheduled := jiffies }

/-- What `switch_to` charges the task that it leaves with. -/
def charge (jiffies : Nat) (task : Task) : Task :=
  { task with
    cpuJiffies := (task.cpuJiffies + (2 ^ 32 + jiffies - task.jiffiesWhenScheduled)) % 2 ^ 32 }

/-- A user task outside the kernel, which can make a system call. -/
def callsFree (task : Task) : Bool :=
  task.isKernelTask = false ∧ task.call = none

def waitFor (waitable : Waitable) (task : Task) : Task :=
  { task with state := .Waiting, waitingFor := some waitable }

end Task

structure TaskManager where
  tasks : List Task
  runningTaskIndex : Nat

namespace TaskManager

def runningTask (manager : TaskManager) : Option Task :=
  manager.tasks[manager.runningTaskIndex]?

def modify (manager : TaskManager) (index : Nat) (change : Task -> Task) : TaskManager :=
  { manager with tasks := manager.tasks.modify index change }

/-- `pick_next_task`; the loop is given a number of turns. -/
def pickNextTask (finished : Waitable -> Bool) : Nat -> TaskManager -> Option TaskManager
  | 0, _ => none
  | turns + 1, manager =>
      let index := manager.runningTaskIndex + 1
      let index := if manager.tasks.length ≤ index then 0 else index
      match manager.tasks[index]? with
      | none => none
      | some task =>
          let manager : TaskManager :=
            { tasks := manager.tasks.set index (task.updateState finished)
              runningTaskIndex := index }
          if (task.updateState finished).canRun then some manager
          else pickNextTask finished turns manager

end TaskManager

/-- The kernel.  The last four fields only record what happened: the tasks that
were picked, how many requests have been made, how many bytes each of them has
transferred, and what the calls of `UARTFile` returned. -/
structure System where
  manager : TaskManager
  jiffies : Nat
  uart : UART
  picks : List Nat := []
  requests : Nat := 0
  transferred : Nat -> Nat := fun _ => 0
  returned : List (Nat × Nat) := []

/-- An interrupt is raised by the timer, by the UART or by both. -/
inductive Event where
  | irq (timer : Option Nat) (uart : Option (List Meanwhile))
  | yield
  | sleep (secs : Nat)
  | exit
  | request (buf size : Nat) (isWriteRequest : Bool)
  | test
  | wait
  | finish

/-- Whether the scheduler is called. -/
def Event.reschedules : Event -> Bool
  | .irq timer _ => timer.isSome
  | .yield | .sleep _ | .exit | .wait => true
  | .request _ _ _ | .test | .finish => false

/-- Whether the running task is removed. -/
def Event.exits : Event -> Bool
  | .exit => true
  | _ => false

namespace System

def isFinished (system : System) : Waitable -> Bool
  | .sleepWaitable sleepEndTime => sleepEndTime ≤ system.jiffies
  | .uartRequest => system.uart.request.isFinished

def modifyRunning (system : System) (change : Task -> Task) : System :=
  { system with manager := system.manager.modify system.manager.runningTaskIndex change }

/-- The running task, if it makes a system call. -/
def caller (system : System) : Option Task :=
  system.manager.runningTask.filter Task.callsFree

/-- The call of `UARTFile` that the running task is in. -/
def runningCall (system : System) (phase : Phase) : Option UARTCall := do
  let task <- system.manager.runningTask
  let call <- task.call
  if call.phase = phase then return call else none

/-- `SYS_HZ`. -/
def sysHz : Nat := 8

def handleUartIrq (system : System) (schedule : List Meanwhile) : System :=
  let uart := system.uart.handleIrq schedule
  { system with
    uart := uart
    transferred := Function.update system.transferred system.requests uart.request.size }

/-- What an event does up to the point where it calls the scheduler; `none` if
it cannot happen, or is a panic. -/
def enter (system : System) : Event -> Option System
  | .irq timer uart =>
      let system := { system with jiffies := (system.jiffies + timer.getD 0) % 2 ^ 32 }
      match uart with
      | none => some system
      | some schedule => some (system.handleUartIrq schedule)
  | .yield => do
      let _ <- system.caller
      return system
  | .sleep secs => do
      let _ <- system.caller
      return system.modifyRunning
        (Task.waitFor (.sleepWaitable ((system.jiffies + secs * sysHz) % 2 ^ 32)))
  | .exit => do
      let _ <- system.caller
      return { system with manager := { system.manager with
        tasks := system.manager.tasks.eraseIdx system.manager.runningTaskIndex } }
  | .request buf size isWriteRequest => do
      let _ <- system.caller
      let uart <- system.uart.start buf size isWriteRequest
      return ({ system with
        uart := uart
        requests := system.requests + 1
        transferred := Function.update system.transferred (system.requests + 1) 0 } : System)
        |>.modifyRunning fun task => { task with call := some ⟨system.requests + 1, .requested⟩ }
  | .test => do
      let call <- system.runningCall .requested
      let phase := if system.uart.request.isFinished then Phase.waited else .aboutToWait
      return system.modifyRunning fun task => { task with call := some ⟨call.number, phase⟩ }
  | .wait => do
      let call <- system.runningCall .aboutToWait
      return system.modifyRunning fun task =>
        { task.waitFor .uartRequest with call := some ⟨call.number, .waited⟩ }
  | .finish => do
      let call <- system.runningCall .waited
      let size <- system.uart.result
      return ({ system with returned := (call.number, size) :: system.returned } : System)
        |>.modifyRunning fun task => { task with call := none }

/-- The switch to the task that was picked.  The task that exits is not there to
be charged, and a task that is picked again just goes on. -/
def switchTo (system : System) (exits : Bool) (picked : TaskManager) : System :=
  let index := picked.runningTaskIndex
  let last := system.manager.runningTaskIndex
  let manager :=
    if exits then picked.modify index (Task.start system.jiffies)
    else if index = last then picked
    else (picked.modify last (Task.charge system.jiffies)).modify index
      (Task.start system.jiffies)
  { system with manager := manager, picks := index :: system.picks }

/-- An event, with a bound on the turns of the loop of the scheduler. -/
def perform (turns : Nat) (system : System) (event : Event) : Option System := do
  let entered <- system.enter event
  if event.reschedules then
    let picked <- entered.manager.pickNextTask entered.isFinished turns
    return entered.switchTo event.exits picked
  else return entered

def Step (before : System) (event : Event) (after : System) : Prop :=
  Exists fun turns => before.perform turns event = some after

/-- The system behind `start_scheduler`, with tasks of these kinds. -/
def boot (kinds : List CreateFlags) (jiffies : Nat) (uart : UART) : System where
  manager := TaskManager.modify { tasks := kinds.map Task.create, runningTaskIndex := 0 } 0
    (Task.start jiffies)
  jiffies := jiffies
  uart := uart

/-! ## What an event does up to the scheduler -/

variable {before entered : System} {event : Event}

theorem caller_eq_some {task : Task} (calls : before.caller = some task) :
    before.manager.runningTask = some task ∧ task.isKernelTask = false ∧ task.call = none := by
  rcases Option.filter_eq_some_iff.mp calls with ⟨runs, free⟩
  exact ⟨runs, by simpa [Task.callsFree] using free⟩

theorem runningCall_eq_some {phase : Phase} {call : UARTCall}
    (calls : before.runningCall phase = some call) :
    Exists fun task => before.manager.runningTask = some task ∧ task.call = some call ∧
      call.phase = phase := by
  rcases Option.bind_eq_some_iff.mp calls with ⟨task, runs, inner⟩
  rcases Option.bind_eq_some_iff.mp inner with ⟨other, has, rest⟩
  split at rest
  next same =>
      cases Option.some.inj rest
      exact ⟨task, runs, has, same⟩
  next => cases rest

/-- What each event is up to the call of the scheduler, with the task that it comes from
and what has been looked at. -/
inductive Enters (before : System) : Event -> System -> Prop
  | tick (timer : Option Nat) :
      Enters before (.irq timer none)
        { before with jiffies := (before.jiffies + timer.getD 0) % 2 ^ 32 }
  | uartIrq (timer : Option Nat) (schedule : List Meanwhile) :
      Enters before (.irq timer (some schedule))
        (handleUartIrq { before with jiffies := (before.jiffies + timer.getD 0) % 2 ^ 32 } schedule)
  | yield (task : Task) (calls : before.caller = some task) : Enters before .yield before
  | sleep (secs : Nat) (task : Task) (calls : before.caller = some task) :
      Enters before (.sleep secs) (before.modifyRunning
        (Task.waitFor (.sleepWaitable ((before.jiffies + secs * sysHz) % 2 ^ 32))))
  | exit (task : Task) (calls : before.caller = some task) :
      Enters before .exit { before with manager := { before.manager with
        tasks := before.manager.tasks.eraseIdx before.manager.runningTaskIndex } }
  | request (buf size : Nat) (isWriteRequest : Bool) (task : Task) (uart : UART)
      (calls : before.caller = some task)
      (started : before.uart.start buf size isWriteRequest = some uart) :
      Enters before (.request buf size isWriteRequest) (modifyRunning { before with
          uart := uart
          requests := before.requests + 1
          transferred := Function.update before.transferred (before.requests + 1) 0 }
        fun task => { task with call := some ⟨before.requests + 1, .requested⟩ })
  | test (task : Task) (call : UARTCall) (runs : before.manager.runningTask = some task)
      (has : task.call = some call) (phase : call.phase = .requested) :
      Enters before .test (before.modifyRunning fun task => { task with
        call := some ⟨call.number,
          if before.uart.request.isFinished then Phase.waited else .aboutToWait⟩ })
  | wait (task : Task) (call : UARTCall) (runs : before.manager.runningTask = some task)
      (has : task.call = some call) (phase : call.phase = .aboutToWait) :
      Enters before .wait (before.modifyRunning fun task =>
        { task.waitFor .uartRequest with call := some ⟨call.number, .waited⟩ })
  | finish (task : Task) (call : UARTCall) (size : Nat)
      (runs : before.manager.runningTask = some task) (has : task.call = some call)
      (phase : call.phase = .waited) (result : before.uart.result = some size) :
      Enters before .finish
        (modifyRunning { before with returned := (call.number, size) :: before.returned }
          fun task => { task with call := none })

theorem enter_cases (enters : before.enter event = some entered) : Enters before event entered := by
  cases event with
  | irq timer uart =>
      cases uart with
      | none =>
          cases enters
          exact .tick timer
      | some schedule =>
          cases enters
          exact .uartIrq timer schedule
  | yield =>
      rcases Option.bind_eq_some_iff.mp enters with ⟨task, calls, rest⟩
      cases rest
      exact .yield task calls
  | sleep secs =>
      rcases Option.bind_eq_some_iff.mp enters with ⟨task, calls, rest⟩
      cases rest
      exact .sleep secs task calls
  | exit =>
      rcases Option.bind_eq_some_iff.mp enters with ⟨task, calls, rest⟩
      cases rest
      exact .exit task calls
  | request buf size isWriteRequest =>
      rcases Option.bind_eq_some_iff.mp enters with ⟨task, calls, rest⟩
      rcases Option.bind_eq_some_iff.mp rest with ⟨uart, started, done⟩
      cases done
      exact .request buf size isWriteRequest task uart calls started
  | test =>
      rcases Option.bind_eq_some_iff.mp enters with ⟨call, calls, rest⟩
      rcases runningCall_eq_some calls with ⟨task, runs, has, phase⟩
      cases rest
      exact .test task call runs has phase
  | wait =>
      rcases Option.bind_eq_some_iff.mp enters with ⟨call, calls, rest⟩
      rcases runningCall_eq_some calls with ⟨task, runs, has, phase⟩
      cases rest
      exact .wait task call runs has phase
  | finish =>
      rcases Option.bind_eq_some_iff.mp enters with ⟨call, calls, rest⟩
      rcases Option.bind_eq_some_iff.mp rest with ⟨size, result, done⟩
      rcases runningCall_eq_some calls with ⟨task, runs, has, phase⟩
      cases done
      exact .finish task call size runs has phase result

end System

end Kernel
end Pinyon
