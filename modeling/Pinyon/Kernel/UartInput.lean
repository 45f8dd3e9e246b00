import Pinyon.Kernel.Uart

namespace Pinyon
namespace Kernel

open Library

/-!
# Reading from the UART

Read requests follow one another while characters come in and interrupts are
handled in any order.  The text that the requests return, with a newline for
each of them that a line break ended, is what was taken out of the receive FIFO
with carriage returns read as newlines.
-/

/-- How a reader sees a character of the input. -/
def asRead (char : UInt8) : UInt8 :=
  if char = carriageReturn then newline else char

theorem asRead_of_break {char : UInt8} (ends : char = newline ∨ char = carriageReturn) :
    asRead char = newline := by
  rcases ends with rfl | rfl <;> rfl

theorem asRead_of_not_break {char : UInt8} (plain : ¬(char = newline ∨ char = carriageReturn)) :
    asRead char = char := by
  rw [not_or] at plain
  rw [asRead, if_neg plain.2]

/-- The newline that stands for a line break, which is not stored. -/
def lineEnd (stoppedOnBreak : Bool) : List UInt8 :=
  if stoppedOnBreak then [newline] else []

namespace UARTRegisters

/-- What `try_read` stores is what it takes out of the FIFO, and it stores
nothing outside the room it was given. -/
theorem tryRead_spec (left : Nat) (schedule : List Meanwhile) (memory : Memory) (buf : Nat)
    (uart : UARTRegisters) (transfer : Transfer)
    (done : tryRead left schedule memory buf uart = transfer) :
    transfer.amount ≤ left ∧ (transfer.stoppedOnBreak = true -> transfer.amount < left) ∧
      (forall address, address < buf ∨ buf + left ≤ address ->
        transfer.memory address = memory address) ∧
      Exists fun taken => uart.receive.Consumes transfer.uart.receive taken ∧
        transfer.memory.slice buf transfer.amount ++ lineEnd transfer.stoppedOnBreak =
          taken.map asRead := by
  induction left generalizing schedule memory buf uart transfer with
  | zero =>
      subst done
      exact ⟨Nat.le_refl 0, fun wrong => absurd wrong Bool.false_ne_true,
        fun _ _ => rfl, [],
        ReceiveFifo.Consumes.refl _, rfl⟩
  | succ left inductionHypothesis =>
      have arrives := uart.receive.consumes_arrive (schedule.headD {}).arrived
      rw [tryRead] at done
      split at done
      next empty =>
          subst done
          exact ⟨Nat.zero_le _, fun wrong => absurd wrong Bool.false_ne_true,
            fun _ _ => rfl, [], arrives, rfl⟩
      next ch rest queue =>
          have takes := arrives.trans (ReceiveFifo.consumes_read queue)
          simp only at done
          split at done
          next ends =>
              subst done
              refine ⟨Nat.zero_le _, fun _ => Nat.succ_pos _, fun _ _ => rfl, [ch], takes, ?_⟩
              rw [List.map_singleton, asRead_of_break ends]
              rfl
          next plain =>
              rcases inductionHypothesis _ _ _ _ _ rfl with
                ⟨amount_le, broke, unchanged, taken, consumes, text⟩
              subst done
              refine ⟨Nat.succ_le_succ amount_le, fun stopped => Nat.succ_lt_succ (broke stopped),
                fun address outside => ?_, ch :: taken, takes.trans consumes, ?_⟩
              · rw [unchanged address (by omega)]
                exact Function.update_of_ne (by omega) ..
              · have stored := unchanged buf (.inl (Nat.lt_succ_self buf))
                simp only [Memory.slice_succ, List.cons_append, text, List.map_cons,
                  asRead_of_not_break plain]
                rw [stored]
                exact congrArg (· :: _) (Function.update_self ..)

end UARTRegisters

namespace UART

/-- An interrupt moves characters from the FIFO behind those that the request
has already, and gives the rest of its room up at a line break. -/
theorem handleIrq_read {uart : UART} (reads : uart.request.isWriteRequest = false)
    (sized : uart.request.size ≤ uart.request.capacity) (schedule : List Meanwhile) (after : UART)
    (done : uart.handleIrq schedule = after) :
    after.request.isWriteRequest = false ∧ after.request.buf = uart.request.buf ∧
      after.request.size ≤ after.request.capacity ∧
      after.request.capacity ≤ uart.request.capacity ∧
      (after.request.capacity < uart.request.capacity ->
        after.request.size = after.request.capacity) ∧
      (forall address, address < uart.request.buf ∨
        uart.request.buf + uart.request.capacity ≤ address ->
          after.memory address = uart.memory address) ∧
      Exists fun taken => uart.registers.receive.Consumes after.registers.receive taken ∧
        after.memory.slice uart.request.buf after.request.size ++
            lineEnd (after.request.capacity < uart.request.capacity) =
          uart.memory.slice uart.request.buf uart.request.size ++ taken.map asRead := by
  rcases UARTRegisters.tryRead_spec (uart.request.capacity - uart.request.size) schedule
      uart.memory (uart.request.buf + uart.request.size)
      (uart.registers.clearIrq uart.request.mask) _ rfl with
    ⟨amount_le, broke, unchanged, taken, consumes, text⟩
  generalize transferred : UARTRegisters.tryRead (uart.request.capacity - uart.request.size)
    schedule uart.memory (uart.request.buf + uart.request.size)
    (uart.registers.clearIrq uart.request.mask) = transfer at *
  rcases uart.handleIrq_moves schedule with ⟨request, memory, receive, _⟩
  rw [done, fillFromUart] at request memory receive
  simp only [clearIrq, reads, Bool.false_eq_true, if_false, transferred] at request memory receive
  have shorter : decide (after.request.capacity < uart.request.capacity) =
      transfer.stoppedOnBreak := by
    cases stopped : transfer.stoppedOnBreak with
    | false => simp [request, stopped]
    | true =>
        have less := broke stopped
        simp only [request, stopped, if_true, decide_eq_true_eq]
        omega
  have bounds : after.request.size ≤ after.request.capacity ∧
      after.request.capacity ≤ uart.request.capacity ∧
      (after.request.capacity < uart.request.capacity ->
        after.request.size = after.request.capacity) := by
    cases stopped : transfer.stoppedOnBreak <;> simp [request, stopped] <;> omega
  refine ⟨by rw [request], by rw [request], bounds.1, bounds.2.1, bounds.2.2,
    fun address outside => ?_, taken, ?_, ?_⟩
  · rw [memory]
    exact unchanged address (by omega)
  · rw [receive]
    exact consumes
  · have old : transfer.memory.slice uart.request.buf uart.request.size =
        uart.memory.slice uart.request.buf uart.request.size :=
      Memory.slice_congr fun address _ below => unchanged address (.inl below)
    rw [shorter, memory, request]
    simp only
    rw [Memory.slice_add, List.append_assoc, text, old]

end UART

/-- What a call returned, and whether a line break ended it. -/
structure Returned where
  chars : List UInt8
  endedOnBreak : Bool
deriving DecidableEq, Repr

def Returned.text (returned : Returned) : List UInt8 :=
  returned.chars ++ lineEnd returned.endedOnBreak

/-- A UART that is read by one call at a time. -/
structure Input where
  uart : UART
  /-- `at_most_bytes` of the call in progress. -/
  reading : Option Nat := none
  returned : List Returned := []

inductive InputEvent where
  | arrive (chars : List UInt8)
  | drain (count : Nat)
  | read (buf atMostBytes : Nat)
  | irq (schedule : List Meanwhile)
  | finish

namespace Input

/-- The device before the first request, with what is in the FIFO by then. -/
def boot (queue : List UInt8) (transmit : TransmitFifo) (memory : Memory) : Input where
  uart :=
    { registers := { receive := ⟨queue, queue⟩, transmit := transmit }
      request := {}
      memory := memory }

/-- A request that has given up room has met a line break. -/
def endedOnBreak (input : Input) (atMostBytes : Nat) : Bool :=
  input.uart.request.capacity < atMostBytes

def stored (input : Input) : List UInt8 :=
  input.uart.memory.slice input.uart.request.buf input.uart.request.size

def perform (input : Input) : InputEvent -> Option Input
  | .arrive chars => some { input with uart := input.uart.arrive chars }
  | .drain count => some { input with uart := input.uart.drain count }
  | .read buf atMostBytes =>
      match input.reading with
      | some _ => none
      | none => do
          let uart <- input.uart.start buf atMostBytes false
          return { input with uart := uart, reading := some atMostBytes }
  | .irq schedule => some { input with uart := input.uart.handleIrq schedule }
  | .finish => do
      let atMostBytes <- input.reading
      let size <- input.uart.result
      return { input with
        reading := none
        returned := input.returned ++
          [⟨input.uart.memory.slice input.uart.request.buf size, input.endedOnBreak atMostBytes⟩] }

def Step (before : Input) (event : InputEvent) (after : Input) : Prop :=
  before.perform event = some after

/-- The text of the call in progress, as far as it has come. -/
def current (input : Input) : List UInt8 :=
  match input.reading with
  | none => []
  | some atMostBytes => input.stored ++ lineEnd (input.endedOnBreak atMostBytes)

/-- The text of all calls. -/
def text (input : Input) : List UInt8 :=
  input.returned.flatMap Returned.text ++ input.current

/-- The calls have received what was taken out of the FIFO. -/
def Delivered (input : Input) : Prop :=
  Exists fun consumed =>
    input.uart.registers.receive.arrived = consumed ++ input.uart.registers.receive.queue ∧
      input.text = consumed.map asRead

/-- Whether an address is in the buffer of the call in progress. -/
def InBuffer (input : Input) (address : Nat) : Prop :=
  Exists fun atMostBytes => input.reading = some atMostBytes ∧
    input.uart.request.buf ≤ address ∧ address < input.uart.request.buf + atMostBytes

structure Sound (input : Input) : Prop where
  reads : input.uart.request.isWriteRequest = false
  idle : input.reading = none -> input.uart.request.isFinished = true
  sized : forall atMostBytes, input.reading = some atMostBytes ->
    input.uart.request.size ≤ input.uart.request.capacity ∧
      input.uart.request.capacity ≤ atMostBytes ∧
      (input.uart.request.capacity < atMostBytes -> input.uart.request.isFinished = true)
  delivered : input.Delivered

variable {before after : Input}

/-- Consuming characters that become a part of the text keeps a reader in step
with the FIFO. -/
theorem Delivered.of_consumes {taken : List UInt8} (delivered : before.Delivered)
    (consumes : before.uart.registers.receive.Consumes after.uart.registers.receive taken)
    (text : after.text = before.text ++ taken.map asRead) : after.Delivered := by
  rcases delivered with ⟨consumed, arrived, same⟩
  rcases consumes with ⟨chars, arrivedMore, queue⟩
  refine ⟨consumed ++ taken, ?_, ?_⟩
  · rw [arrivedMore, arrived, List.append_assoc, queue, List.append_assoc]
  · rw [text, same, List.map_append]

theorem sound_boot (queue : List UInt8) (transmit : TransmitFifo) (memory : Memory) :
    (boot queue transmit memory).Sound where
  reads := rfl
  idle := fun _ => rfl
  sized := fun _ wrong => by cases wrong
  delivered := ⟨[], rfl, rfl⟩

/-- An event that leaves the request and the memory alone. -/
theorem Sound.of_same (sound : before.Sound) (reading : after.reading = before.reading)
    (returned : after.returned = before.returned)
    (request : after.uart.request = before.uart.request)
    (memory : after.uart.memory = before.uart.memory)
    (consumes : before.uart.registers.receive.Consumes after.uart.registers.receive []) :
    after.Sound where
  reads := by
    rw [request]
    exact sound.reads
  idle := by
    rw [reading, request]
    exact sound.idle
  sized := by
    rw [reading, request]
    exact sound.sized
  delivered := by
    apply sound.delivered.of_consumes consumes
    simp [Input.text, current, stored, endedOnBreak, reading, returned, request, memory]

theorem Sound.irq (sound : before.Sound) {schedule : List Meanwhile}
    (taken : before.Step (.irq schedule) after) : after.Sound := by
  cases Option.some.inj taken
  cases finished : before.uart.request.isFinished with
  | true =>
      rcases UART.handleIrq_finished finished schedule with ⟨request, memory, receive, _⟩
      apply sound.of_same
      · rfl
      · rfl
      · exact request
      · exact memory
      · simp only [receive]
        exact ReceiveFifo.Consumes.refl _
  | false =>
      cases reading : before.reading with
      | none => exact absurd (sound.idle reading) (by simp [finished])
      | some atMostBytes =>
          rcases sound.sized _ reading with ⟨size_le, capacity_le, broke⟩
          have open_ : before.uart.request.capacity = atMostBytes := by
            by_contra different
            have ended := broke (by omega)
            simp [finished] at ended
          rcases UART.handleIrq_read sound.reads size_le schedule _ rfl with
            ⟨reads, buf, sizeAfter_le, capacityAfter_le, brokeAfter, _, taken, consumes, text⟩
          refine ⟨reads, fun idle => ?_, fun other here => ?_, ?_⟩
          · exact absurd idle (by simp)
          · have same : other = atMostBytes := by simpa [reading] using here.symm
            subst same
            refine ⟨sizeAfter_le, by simp only; omega, fun less => ?_⟩
            exact decide_eq_true (brokeAfter (by simp only at less; omega))
          · apply sound.delivered.of_consumes consumes
            simp only [Input.text, current, reading, stored, endedOnBreak]
            rw [← open_, buf, text]
            simp [lineEnd]

theorem Sound.read (sound : before.Sound) {buf atMostBytes : Nat}
    (taken : before.Step (.read buf atMostBytes) after) : after.Sound := by
  rw [Step, perform] at taken
  cases reading : before.reading with
  | some other => simp [reading] at taken
  | none =>
      have finished := sound.idle reading
      simp only [reading, UART.start, finished, if_true] at taken
      cases Option.some.inj taken
      refine ⟨rfl, fun wrong => (by cases wrong), fun other here => ?_, ?_⟩
      · cases Option.some.inj here
        exact ⟨Nat.zero_le _, Nat.le_refl _, fun less => absurd less (Nat.lt_irrefl _)⟩
      · rcases sound.delivered with ⟨consumed, arrived, text⟩
        refine ⟨consumed, arrived, ?_⟩
        rw [← text]
        simp [Input.text, current, stored, endedOnBreak, reading, Memory.slice, lineEnd]

theorem Sound.finish (sound : before.Sound) (taken : before.Step .finish after) :
    after.Sound := by
  rw [Step, perform] at taken
  cases reading : before.reading with
  | none => simp [reading] at taken
  | some atMostBytes =>
      cases finished : before.uart.request.isFinished with
      | false => simp [reading, UART.result, finished] at taken
      | true =>
          simp only [reading, UART.result, finished, if_true] at taken
          cases Option.some.inj taken
          refine ⟨sound.reads, fun _ => finished, fun _ wrong => (by cases wrong), ?_⟩
          rcases sound.delivered with ⟨consumed, arrived, text⟩
          refine ⟨consumed, arrived, ?_⟩
          rw [← text]
          simp [Input.text, current, stored, endedOnBreak, reading, Returned.text]

theorem Sound.step (sound : before.Sound) {event : InputEvent}
    (taken : before.Step event after) : after.Sound := by
  cases event with
  | arrive chars =>
      cases Option.some.inj taken
      exact sound.of_same rfl rfl rfl rfl (ReceiveFifo.consumes_arrive _ _)
  | drain count =>
      cases Option.some.inj taken
      exact sound.of_same rfl rfl rfl rfl (ReceiveFifo.Consumes.refl _)
  | read buf atMostBytes => exact sound.read taken
  | irq schedule => exact sound.irq taken
  | finish => exact sound.finish taken

/-- Interrupts store in the buffer of the call in progress only. -/
theorem Sound.confined (sound : before.Sound) (schedule : List Meanwhile) {address : Nat}
    (outside : ¬before.InBuffer address) :
    (before.uart.handleIrq schedule).memory address = before.uart.memory address := by
  cases reading : before.reading with
  | none => rw [(UART.handleIrq_finished (sound.idle reading) schedule).2.1]
  | some atMostBytes =>
      rcases sound.sized _ reading with ⟨size_le, capacity_le, _⟩
      rcases UART.handleIrq_read sound.reads size_le schedule _ rfl with
        ⟨_, _, _, _, _, unchanged, _⟩
      apply unchanged
      by_contra inside
      exact outside ⟨atMostBytes, reading, by omega, by omega⟩

/-- What is read from the UART is the input, in order and complete, and nothing
is stored outside the buffer of a call or taken from the FIFO for a finished
one. -/
theorem input_delivered {queue : List UInt8} {transmit : TransmitFifo} {memory : Memory}
    {events : List InputEvent} {final : Input}
    (reached : Reaches Step (boot queue transmit memory) events final) :
    final.Delivered ∧
      (forall schedule address, ¬final.InBuffer address ->
        (final.uart.handleIrq schedule).memory address = final.uart.memory address) ∧
      (final.uart.request.isFinished = true -> forall schedule,
        (final.uart.handleIrq schedule).request = final.uart.request ∧
          (final.uart.handleIrq schedule).memory = final.uart.memory ∧
          (final.uart.handleIrq schedule).registers.receive = final.uart.registers.receive) := by
  have sound := reached.invariant Sound (sound_boot queue transmit memory)
    fun _ _ _ sound taken => sound.step taken
  refine ⟨sound.delivered, fun schedule _ outside => sound.confined schedule outside,
    fun finished schedule => ?_⟩
  have still := UART.handleIrq_finished finished schedule
  exact ⟨still.1, still.2.1, still.2.2.1⟩

/-- A call that is ended by a line break leaves the rest of the input alone. -/
theorem input_delivered_line :
    Exists fun final =>
      Reaches Step (boot [104, 105, 13, 120] { depth := 16, occupied := 0 } fun _ => 0)
        [.finish, .irq [], .read 0 8] final ∧
      final.returned = [⟨[104, 105], true⟩] ∧ final.uart.registers.receive.queue = [120] ∧
      final.Delivered := by
  have reached : Reaches Step (boot [104, 105, 13, 120] { depth := 16, occupied := 0 } fun _ => 0)
      [.finish, .irq [], .read 0 8] _ := .tail (.tail (.tail .refl rfl) rfl) rfl
  exact ⟨_, reached, rfl, rfl, (input_delivered reached).1⟩

end Input

end Kernel
end Pinyon
