import Pinyon.Library.History

namespace Pinyon
namespace Kernel

/-!
# The UART

A request to read or to write is served piecemeal by the interrupts of the
device: each moves as many characters as the receive FIFO holds, or as the
transmit FIFO has room for.  The device goes on working while an interrupt is
being handled, so the two loops are given what happens in front of each of
their turns.
-/

/-- `'\n'`. -/
def newline : UInt8 := 10

/-- `'\r'`. -/
def carriageReturn : UInt8 := 13

abbrev Memory : Type := Nat -> UInt8

namespace Memory

def store (memory : Memory) (address : Nat) (char : UInt8) : Memory :=
  Function.update memory address char

/-- The characters of a buffer. -/
def slice (memory : Memory) (buf size : Nat) : List UInt8 :=
  (List.range size).map fun offset => memory (buf + offset)

theorem slice_succ (memory : Memory) (buf size : Nat) :
    memory.slice buf (size + 1) = memory buf :: memory.slice (buf + 1) size := by
  simp only [slice, List.range_succ_eq_map, List.map_cons, List.map_map, Nat.add_zero]
  congr 1
  apply List.map_congr_left
  intro offset _
  simp [Nat.add_comm, Nat.add_left_comm]

theorem slice_add (memory : Memory) (buf first second : Nat) :
    memory.slice buf (first + second) =
      memory.slice buf first ++ memory.slice (buf + first) second := by
  simp [slice, List.range_add, Nat.add_assoc]

theorem slice_congr {memory other : Memory} {buf size : Nat}
    (agree : forall address, buf ≤ address -> address < buf + size ->
      memory address = other address) :
    memory.slice buf size = other.slice buf size := by
  apply List.map_congr_left
  intro offset member
  have below := List.mem_range.mp member
  exact agree _ (by omega) (by omega)

end Memory

/-- The receive FIFO.  `arrived` records all that ever came in. -/
structure ReceiveFifo where
  queue : List UInt8
  arrived : List UInt8

namespace ReceiveFifo

def arrive (fifo : ReceiveFifo) (chars : List UInt8) : ReceiveFifo where
  queue := fifo.queue ++ chars
  arrived := fifo.arrived ++ chars

/-- What was taken out of the FIFO on the way from one state to another. -/
def Consumes (before after : ReceiveFifo) (taken : List UInt8) : Prop :=
  Exists fun chars => after.arrived = before.arrived ++ chars ∧
    before.queue ++ chars = taken ++ after.queue

theorem Consumes.refl (fifo : ReceiveFifo) : fifo.Consumes fifo [] :=
  ⟨[], by simp, by simp⟩

theorem Consumes.trans {first second third : ReceiveFifo} {taken more : List UInt8}
    (earlier : first.Consumes second taken) (later : second.Consumes third more) :
    first.Consumes third (taken ++ more) := by
  rcases earlier with ⟨chars, arrived, queue⟩
  rcases later with ⟨others, arrivedLater, queueLater⟩
  refine ⟨chars ++ others, ?_, ?_⟩
  · rw [arrivedLater, arrived, List.append_assoc]
  · rw [← List.append_assoc, queue, List.append_assoc, queueLater, List.append_assoc]

theorem consumes_arrive (fifo : ReceiveFifo) (chars : List UInt8) :
    fifo.Consumes (fifo.arrive chars) [] :=
  ⟨chars, rfl, rfl⟩

/-- Reading the data register. -/
theorem consumes_read {fifo : ReceiveFifo} {char : UInt8} {rest : List UInt8}
    (queue : fifo.queue = char :: rest) :
    fifo.Consumes { fifo with queue := rest } [char] :=
  ⟨[], by simp, by simp [queue]⟩

end ReceiveFifo

/-- The transmit FIFO.  `accepted` records what was put into it and `dropped`
what was written to the data register while it was full. -/
structure TransmitFifo where
  depth : Nat
  occupied : Nat
  accepted : List UInt8 := []
  dropped : List UInt8 := []
deriving DecidableEq, Repr

namespace TransmitFifo

/-- The flag TXFF. -/
def full (fifo : TransmitFifo) : Bool :=
  fifo.depth ≤ fifo.occupied

def drain (fifo : TransmitFifo) (count : Nat) : TransmitFifo :=
  { fifo with occupied := fifo.occupied - count }

/-- A write to the data register. -/
def write (fifo : TransmitFifo) (char : UInt8) : TransmitFifo :=
  if fifo.full then { fifo with dropped := fifo.dropped ++ [char] }
  else { fifo with occupied := fifo.occupied + 1, accepted := fifo.accepted ++ [char] }

end TransmitFifo

/-- What the device does in front of one turn of a loop, and in front of the
second write to the data register of that turn. -/
structure Meanwhile where
  arrived : List UInt8 := []
  drained : Nat := 0
  drainedBetween : Nat := 0

/-- `overwrite_bit_range`; the mask leaves out the last bit of the range. -/
def overwriteBitRange (dest value : BitVec 32) (startInclusive endInclusive : Nat) : BitVec 32 :=
  let mask := ((BitVec.ofNat 32 1 <<< (endInclusive - startInclusive)) - BitVec.ofNat 32 1) <<<
    startInclusive
  (dest &&& ~~~mask) ||| (value &&& mask)

structure UARTRegisters where
  receive : ReceiveFifo
  transmit : TransmitFifo
  ifls : BitVec 32 := 0
  imsc : BitVec 32 := 0
  icr : BitVec 32 := 0

/-- What `try_read` and `try_write` return and leave behind. -/
structure Transfer where
  amount : Nat
  stoppedOnBreak : Bool := false
  memory : Memory
  uart : UARTRegisters

namespace UARTRegisters

/-- The masks of the receive and of the transmit interrupt. -/
def readMask : BitVec 32 := BitVec.ofNat 32 1 <<< 4
def writeMask : BitVec 32 := BitVec.ofNat 32 1 <<< 5

/-- `enable_read_irq` and `enable_write_irq`. -/
def enableIrq (uart : UARTRegisters) (mask : BitVec 32) : UARTRegisters :=
  { uart with imsc := uart.imsc ||| mask }

/-- `disable_read_irq` and `disable_write_irq`. -/
def disableIrq (uart : UARTRegisters) (mask : BitVec 32) : UARTRegisters :=
  { uart with imsc := uart.imsc &&& ~~~mask }

/-- `clear_read_irq` and `clear_write_irq`. -/
def clearIrq (uart : UARTRegisters) (mask : BitVec 32) : UARTRegisters :=
  { uart with icr := uart.icr &&& ~~~mask }

-- `overwrite_bit_range` returns the new bits; `set_read_irq` and `set_write_irq` do not store
-- them, and the levels stay as they are.

def setReadIrq (uart : UARTRegisters) (readSize : Nat) : UARTRegisters :=
  let _discarded := overwriteBitRange uart.ifls (BitVec.ofNat 32 (min readSize 8 / 2)) 3 5
  uart

def setWriteIrq (uart : UARTRegisters) (writeSize : Nat) : UARTRegisters :=
  let _discarded := overwriteBitRange uart.ifls (BitVec.ofNat 32 (min writeSize 8 / 2)) 0 2
  uart

/-- `poll_put`, whose wait is over once enough has drained to make room. -/
def pollPut (uart : UARTRegisters) (drained : Nat) (char : UInt8) : UARTRegisters :=
  let waited := max drained (uart.transmit.occupied + 1 - uart.transmit.depth)
  { uart with transmit := (uart.transmit.drain waited).write char }

/-- `try_read`.  Each character is echoed. -/
def tryRead : Nat -> List Meanwhile -> Memory -> Nat -> UARTRegisters -> Transfer
  | 0, _, memory, _, uart => { amount := 0, memory := memory, uart := uart }
  | left + 1, schedule, memory, buf, uart =>
      let now := schedule.headD {}
      let receive := uart.receive.arrive now.arrived
      match receive.queue with
      | [] => { amount := 0, memory := memory, uart := { uart with receive := receive } }
      | ch :: rest =>
          let uart := { uart with receive := { receive with queue := rest } }
          if ch = newline ∨ ch = carriageReturn then
            { amount := 0, stoppedOnBreak := true, memory := memory,
              uart := uart.pollPut now.drained newline }
          else
            let others := tryRead left schedule.tail (memory.store buf ch) (buf + 1)
              (uart.pollPut now.drained ch)
            { others with amount := others.amount + 1 }

/-- One turn of `try_write`: the character, and a carriage return behind a
newline. -/
def putChar (fifo : TransmitFifo) (drainedBetween : Nat) (ch : UInt8) : TransmitFifo :=
  if ch = newline then ((fifo.write ch).drain drainedBetween).write carriageReturn
  else fifo.write ch

/-- `try_write`. -/
def tryWrite : Nat -> List Meanwhile -> Memory -> Nat -> UARTRegisters -> Transfer
  | 0, _, memory, _, uart => { amount := 0, memory := memory, uart := uart }
  | left + 1, schedule, memory, buf, uart =>
      let now := schedule.headD {}
      let transmit := uart.transmit.drain now.drained
      if transmit.full then
        { amount := 0, memory := memory, uart := { uart with transmit := transmit } }
      else
        let others := tryWrite left schedule.tail memory (buf + 1)
          { uart with transmit := putChar transmit now.drainedBetween (memory buf) }
        { others with amount := others.amount + 1 }

end UARTRegisters

structure UARTRequest where
  buf : Nat := 0
  size : Nat := 0
  capacity : Nat := 0
  isWriteRequest : Bool := false
deriving DecidableEq, Repr

/-- The device, the request that all callers share, and the memory. -/
structure UART where
  registers : UARTRegisters
  request : UARTRequest
  memory : Memory

namespace UARTRequest

def isFinished (request : UARTRequest) : Bool :=
  request.size = request.capacity

def mask (request : UARTRequest) : BitVec 32 :=
  if request.isWriteRequest then UARTRegisters.writeMask else UARTRegisters.readMask

def setIrq (request : UARTRequest) (uart : UARTRegisters) : UARTRegisters :=
  if request.isWriteRequest then uart.setWriteIrq (request.capacity - request.size)
  else uart.setReadIrq (request.capacity - request.size)

end UARTRequest

namespace UART

/-- `fill_from_uart`. -/
def fillFromUart (uart : UART) (schedule : List Meanwhile) : UART :=
  let request := uart.request
  let amountOriginallyLeft := request.capacity - request.size
  if request.isWriteRequest then
    let transfer := UARTRegisters.tryWrite amountOriginallyLeft schedule uart.memory
      (request.buf + request.size) uart.registers
    { registers := transfer.uart
      request := { request with size := request.size + transfer.amount }
      memory := transfer.memory }
  else
    let transfer := UARTRegisters.tryRead amountOriginallyLeft schedule uart.memory
      (request.buf + request.size) uart.registers
    let size := request.size + transfer.amount
    { registers := transfer.uart
      request := { request with
        size := size
        capacity := if transfer.stoppedOnBreak then size else request.capacity }
      memory := transfer.memory }

def clearIrq (uart : UART) : UART :=
  { uart with registers := uart.registers.clearIrq uart.request.mask }

/-- `handle_irq` of the request. -/
def handleIrq (uart : UART) (schedule : List Meanwhile) : UART :=
  let filled := uart.clearIrq.fillFromUart schedule
  if filled.request.isFinished then
    { filled with registers := filled.registers.disableIrq filled.request.mask }
  else { filled with registers := filled.request.setIrq filled.registers }

/-- Apart from the settings of the interrupt, `fill_from_uart` is all that is
done. -/
theorem handleIrq_moves (uart : UART) (schedule : List Meanwhile) :
    (uart.handleIrq schedule).request = (uart.clearIrq.fillFromUart schedule).request ∧
      (uart.handleIrq schedule).memory = (uart.clearIrq.fillFromUart schedule).memory ∧
      (uart.handleIrq schedule).registers.receive =
        (uart.clearIrq.fillFromUart schedule).registers.receive ∧
      (uart.handleIrq schedule).registers.transmit =
        (uart.clearIrq.fillFromUart schedule).registers.transmit := by
  rw [handleIrq]
  split
  · exact ⟨rfl, rfl, rfl, rfl⟩
  · rw [UARTRequest.setIrq]
    split <;> exact ⟨rfl, rfl, rfl, rfl⟩

/-- An interrupt that finds the request finished moves no character. -/
theorem handleIrq_finished {uart : UART} (finished : uart.request.isFinished = true)
    (schedule : List Meanwhile) :
    (uart.handleIrq schedule).request = uart.request ∧
      (uart.handleIrq schedule).memory = uart.memory ∧
      (uart.handleIrq schedule).registers.receive = uart.registers.receive ∧
      (uart.handleIrq schedule).registers.transmit = uart.registers.transmit := by
  rcases uart.handleIrq_moves schedule with ⟨request, memory, receive, transmit⟩
  rw [request, memory, receive, transmit]
  have full : uart.request.size = uart.request.capacity := of_decide_eq_true finished
  have nothing : uart.clearIrq.request.capacity - uart.clearIrq.request.size = 0 := by
    rw [clearIrq]
    simp only
    omega
  rw [fillFromUart]
  simp only [nothing, UARTRegisters.tryRead, UARTRegisters.tryWrite]
  split <;> exact ⟨rfl, rfl, rfl, rfl⟩

/-- The first half of `UARTFile::read` and `UARTFile::write`, up to where the
caller waits unless the request is finished already; `none` is the panic. -/
def start (uart : UART) (buf size : Nat) (isWriteRequest : Bool) : Option UART :=
  if uart.request.isFinished then
    let request : UARTRequest :=
      { buf := buf, size := 0, capacity := size, isWriteRequest := isWriteRequest }
    some { uart with
      registers := (request.setIrq uart.registers).enableIrq request.mask
      request := request }
  else none

/-- The second half, behind the wait; `none` is the panic. -/
def result (uart : UART) : Option Nat :=
  if uart.request.isFinished then some uart.request.size else none

/-- Characters come in. -/
def arrive (uart : UART) (chars : List UInt8) : UART :=
  { uart with registers := { uart.registers with
      receive := uart.registers.receive.arrive chars } }

/-- Characters of the transmit FIFO are sent. -/
def drain (uart : UART) (count : Nat) : UART :=
  { uart with registers := { uart.registers with
      transmit := uart.registers.transmit.drain count } }

end UART

end Kernel
end Pinyon
