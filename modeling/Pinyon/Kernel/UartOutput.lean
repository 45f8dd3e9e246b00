import Pinyon.Kernel.Uart

namespace Pinyon
namespace Kernel

open Library

/-!
# Writing to the UART

A newline of the buffer takes two places of the transmit FIFO, yet there is one
test for a free place in front of both writes.  A carriage return is lost just
when its newline takes the last free place and nothing is sent in between.
-/

/-- The characters that a buffer stands for. -/
def expand (text : List UInt8) : List UInt8 :=
  text.flatMap fun ch => if ch = newline then [newline, carriageReturn] else [ch]

@[simp] theorem expand_append (first second : List UInt8) :
    expand (first ++ second) = expand first ++ expand second :=
  List.flatMap_append

theorem expand_cons (ch : UInt8) (rest : List UInt8) :
    expand (ch :: rest) = expand [ch] ++ expand rest :=
  expand_append [ch] rest

/-- No newline of the text is written into the last free place of the FIFO
without something being sent before the carriage return. -/
def RoomForBreaks : List UInt8 -> List Meanwhile -> TransmitFifo -> Prop
  | [], _, _ => True
  | ch :: rest, schedule, fifo =>
      let now := schedule.headD {}
      let fifo := fifo.drain now.drained
      fifo.full = true ∨
        (¬(ch = newline ∧ fifo.occupied + 1 = fifo.depth ∧ now.drainedBetween = 0) ∧
          RoomForBreaks rest schedule.tail (UARTRegisters.putChar fifo now.drainedBetween ch))

namespace TransmitFifo

/-- A FIFO after some text was written to it, apart from the characters that
were lost. -/
structure Takes (before after : TransmitFifo) (text lost : List UInt8) : Prop where
  dropped : after.dropped = before.dropped ++ lost
  counted : after.accepted.length + lost.length = before.accepted.length + text.length
  whole : lost = [] -> after.accepted = before.accepted ++ text

theorem Takes.refl (fifo : TransmitFifo) : fifo.Takes fifo [] [] where
  dropped := (List.append_nil _).symm
  counted := rfl
  whole := fun _ => (List.append_nil _).symm

theorem Takes.trans {first second third : TransmitFifo} {text lost more lostLater : List UInt8}
    (earlier : first.Takes second text lost) (later : second.Takes third more lostLater) :
    first.Takes third (text ++ more) (lost ++ lostLater) where
  dropped := by rw [later.dropped, earlier.dropped, List.append_assoc]
  counted := by
    have before := earlier.counted
    have after := later.counted
    simp only [List.length_append]
    omega
  whole := fun nothing => by
    rcases List.append_eq_nil_iff.mp nothing with ⟨none, noneLater⟩
    rw [later.whole noneLater, earlier.whole none, List.append_assoc]

theorem takes_drain (fifo : TransmitFifo) (count : Nat) :
    fifo.Takes (fifo.drain count) [] [] where
  dropped := (List.append_nil _).symm
  counted := rfl
  whole := fun _ => (List.append_nil _).symm

/-- A write to the data register. -/
theorem takes_write (fifo : TransmitFifo) (char : UInt8) :
    fifo.Takes (fifo.write char) [char] (if fifo.full then [char] else []) := by
  cases full : fifo.full with
  | true =>
      rw [write, full]
      exact ⟨rfl, rfl, fun wrong => absurd wrong (List.cons_ne_nil _ _)⟩
  | false =>
      rw [write, full]
      exact ⟨(List.append_nil _).symm, by simp, fun _ => rfl⟩

theorem takes_write_of_room {fifo : TransmitFifo} (room : fifo.full = false) (char : UInt8) :
    fifo.Takes (fifo.write char) [char] [] := by
  have takes := fifo.takes_write char
  rwa [room] at takes

end TransmitFifo

namespace UARTRegisters

/-- One turn of the loop loses something just when a newline takes the last free
place. -/
theorem takes_putChar {fifo : TransmitFifo} (room : fifo.full = false) (drainedBetween : Nat)
    (ch : UInt8) :
    Exists fun lost => fifo.Takes (putChar fifo drainedBetween ch) (expand [ch]) lost ∧
      (lost = [] <-> ¬(ch = newline ∧ fifo.occupied + 1 = fifo.depth ∧ drainedBetween = 0)) := by
  by_cases breaks : ch = newline
  · subst breaks
    have below : fifo.occupied < fifo.depth := by simpa [TransmitFifo.full] using room
    have written := (TransmitFifo.takes_write_of_room room newline).trans
      (TransmitFifo.takes_drain (fifo.write newline) drainedBetween)
    refine ⟨_, written.trans (TransmitFifo.takes_write _ carriageReturn), ?_⟩
    have occupied : ((fifo.write newline).drain drainedBetween).full =
        decide (fifo.depth ≤ fifo.occupied + 1 - drainedBetween) := by
      simp [TransmitFifo.write, TransmitFifo.drain, TransmitFifo.full, Nat.not_le.mpr below]
    rw [occupied]
    by_cases crowded : fifo.depth ≤ fifo.occupied + 1 - drainedBetween
    · have exactly : fifo.occupied + 1 = fifo.depth ∧ drainedBetween = 0 := by omega
      simp [exactly]
    · have spacious : ¬(fifo.occupied + 1 = fifo.depth ∧ drainedBetween = 0) := by omega
      simp [crowded, spacious]
  · refine ⟨[], ?_, ?_⟩
    · simp only [putChar, if_neg breaks, expand, List.flatMap_singleton]
      exact TransmitFifo.takes_write_of_room room ch
    · exact ⟨fun _ both => breaks both.1, fun _ => rfl⟩

/-- What `try_write` hands to the FIFO, and when nothing of it is lost. -/
theorem tryWrite_spec (left : Nat) (schedule : List Meanwhile) (memory : Memory) (buf : Nat)
    (uart : UARTRegisters) (transfer : Transfer)
    (done : tryWrite left schedule memory buf uart = transfer) :
    transfer.amount ≤ left ∧ transfer.memory = memory ∧
      Exists fun lost =>
        uart.transmit.Takes transfer.uart.transmit (expand (memory.slice buf transfer.amount))
          lost ∧
        (lost = [] <-> RoomForBreaks (memory.slice buf left) schedule uart.transmit) := by
  induction left generalizing schedule buf uart transfer with
  | zero =>
      subst done
      exact ⟨Nat.le_refl 0, rfl, [], TransmitFifo.Takes.refl _, fun _ => trivial, fun _ => rfl⟩
  | succ left inductionHypothesis =>
      have drains := uart.transmit.takes_drain (schedule.headD {}).drained
      rw [tryWrite] at done
      rw [Memory.slice_succ, RoomForBreaks]
      simp only at done ⊢
      split at done
      next full =>
          subst done
          exact ⟨Nat.zero_le _, rfl, [], drains, fun _ => .inl full, fun _ => rfl⟩
      next room =>
          have free : (uart.transmit.drain (schedule.headD {}).drained).full = false :=
            Bool.not_eq_true _ ▸ room
          rcases takes_putChar free (schedule.headD {}).drainedBetween (memory buf) with
            ⟨lost, takes, exactly⟩
          rcases inductionHypothesis _ _ _ _ rfl with ⟨amount_le, same, lostLater, later, rest⟩
          subst done
          refine ⟨Nat.succ_le_succ amount_le, same, lost ++ lostLater, ?_, ?_⟩
          · rw [Memory.slice_succ, expand_cons]
            exact (drains.trans takes).trans later
          · rw [List.append_eq_nil_iff, exactly, rest]
            simp only [room, Bool.false_eq_true, false_or]

end UARTRegisters

/-- What happens while a request to write is served. -/
inductive OutputEvent where
  | drain (count : Nat)
  | irq (schedule : List Meanwhile)

namespace UART

def OutputStep (before : UART) (event : OutputEvent) (after : UART) : Prop :=
  match event with
  | .drain count => after = before.drain count
  | .irq schedule => after = before.handleIrq schedule

/-- The part of the buffer that has been transferred. -/
def transferred (uart : UART) : List UInt8 :=
  uart.memory.slice uart.request.buf uart.request.size

/-- The part that has not. -/
def remaining (uart : UART) : List UInt8 :=
  uart.memory.slice (uart.request.buf + uart.request.size)
    (uart.request.capacity - uart.request.size)

/-- The interrupt finds room for both characters of each newline it writes. -/
def Spacious (before : UART) : OutputEvent -> Prop
  | .drain _ => True
  | .irq schedule => RoomForBreaks before.remaining schedule before.registers.transmit

/-- The FIFO has accepted the transferred part of the buffer since the request
was made. -/
def Delivered (begun now : UART) : Prop :=
  now.registers.transmit.accepted = begun.registers.transmit.accepted ++ expand now.transferred

def NothingDropped (begun now : UART) : Prop :=
  now.registers.transmit.dropped = begun.registers.transmit.dropped

/-- A request to write that is being served. -/
structure Writing (begun now : UART) : Prop where
  writes : now.request.isWriteRequest = true
  buf : now.request.buf = begun.request.buf
  capacity : now.request.capacity = begun.request.capacity
  sized : now.request.size ≤ now.request.capacity
  memory : now.memory = begun.memory
  takes : Exists fun lost => begun.registers.transmit.Takes now.registers.transmit
    (expand now.transferred) lost

variable {begun before after : UART} {event : OutputEvent}

/-- One event hands more of the buffer to the FIFO, all of it just when there is
room for the line breaks. -/
theorem Writing.step (writing : begun.Writing before) (taken : before.OutputStep event after) :
    begun.Writing after ∧ Exists fun more => Exists fun lost =>
      after.transferred = before.transferred ++ more ∧
      before.registers.transmit.Takes after.registers.transmit (expand more) lost ∧
      (lost = [] <-> before.Spacious event) := by
  have conclude : forall more lost,
      after.transferred = before.transferred ++ more ->
      before.registers.transmit.Takes after.registers.transmit (expand more) lost ->
      Exists fun lost => begun.registers.transmit.Takes after.registers.transmit
        (expand after.transferred) lost := by
    intro more lost text takes
    rcases writing.takes with ⟨earlier, takesEarlier⟩
    rw [text, expand_append]
    exact ⟨_, takesEarlier.trans takes⟩
  cases event with
  | drain count =>
      cases taken
      have takes := before.registers.transmit.takes_drain count
      have text : (before.drain count).transferred = before.transferred ++ [] :=
        (List.append_nil _).symm
      exact ⟨⟨writing.writes, writing.buf, writing.capacity, writing.sized, writing.memory,
        conclude [] [] text takes⟩, [], [], text, takes, fun _ => trivial, fun _ => rfl⟩
  | irq schedule =>
      cases taken
      rcases UARTRegisters.tryWrite_spec (before.request.capacity - before.request.size) schedule
          before.memory (before.request.buf + before.request.size)
          (before.registers.clearIrq before.request.mask) _ rfl with
        ⟨amount_le, same, lost, takes, exactly⟩
      generalize written : UARTRegisters.tryWrite (before.request.capacity - before.request.size)
        schedule before.memory (before.request.buf + before.request.size)
        (before.registers.clearIrq before.request.mask) = transfer at *
      rcases before.handleIrq_moves schedule with ⟨request, memory, _, transmit⟩
      rw [fillFromUart] at request memory transmit
      simp only [clearIrq, writing.writes, if_true, written] at request memory transmit
      have sized := writing.sized
      have text : (before.handleIrq schedule).transferred = before.transferred ++
          before.memory.slice (before.request.buf + before.request.size) transfer.amount := by
        rw [transferred, transferred, request, memory, same]
        exact Memory.slice_add ..
      rw [← transmit] at takes
      refine ⟨⟨?_, ?_, ?_, ?_, ?_, conclude _ _ text takes⟩, _, lost, text, takes, exactly⟩
      · rw [request]
      · rw [request]
        exact writing.buf
      · rw [request]
        exact writing.capacity
      · rw [request]
        simp only
        omega
      · rw [memory, same]
        exact writing.memory

/-- An event keeps a request delivered just when there is room. -/
theorem Writing.delivered_iff (writing : begun.Writing before)
    (taken : before.OutputStep event after) :
    begun.Delivered after <-> begun.Delivered before ∧ before.Spacious event := by
  rcases writing.takes with ⟨earlier, takesEarlier⟩
  rcases (writing.step taken).2 with ⟨more, lost, text, takes, exactly⟩
  have counted := takes.counted
  have countedEarlier := takesEarlier.counted
  rw [Delivered, Delivered, text, expand_append, ← exactly]
  constructor
  · intro delivered
    have length := congrArg List.length delivered
    simp only [List.length_append] at length
    have nothing : lost = [] := List.length_eq_zero_iff.mp (by omega)
    refine ⟨?_, nothing⟩
    rw [takes.whole nothing, ← List.append_assoc] at delivered
    exact List.append_cancel_right delivered
  · rintro ⟨delivered, nothing⟩
    rw [takes.whole nothing, delivered, List.append_assoc]

theorem Writing.nothingDropped_iff (writing : begun.Writing before)
    (taken : before.OutputStep event after) :
    begun.NothingDropped after <-> begun.NothingDropped before ∧ before.Spacious event := by
  rcases writing.takes with ⟨earlier, takesEarlier⟩
  rcases (writing.step taken).2 with ⟨more, lost, _, takes, exactly⟩
  rw [NothingDropped, NothingDropped, takes.dropped, takesEarlier.dropped, ← exactly]
  simp

theorem writing_start {uart : UART} {buf size : Nat}
    (started : uart.start buf size true = some begun) :
    begun.Writing begun ∧ begun.request.size = 0 ∧ begun.request.capacity = size ∧
      begun.request.buf = buf ∧ begun.memory = uart.memory := by
  rw [start] at started
  split at started
  next =>
      cases Option.some.inj started
      exact ⟨⟨rfl, rfl, rfl, Nat.zero_le _, rfl, [], TransmitFifo.Takes.refl _⟩, rfl, rfl, rfl,
        rfl⟩
  next => cases started

/-- When a request to write is finished, the FIFO has accepted its buffer with
each newline expanded, and was never written to while it was full, just when
each interrupt found room for the line breaks it wrote. -/
theorem output_delivered {uart : UART} {buf size : Nat} {events : List OutputEvent} {final : UART}
    (started : uart.start buf size true = some begun)
    (reached : Reaches OutputStep begun events final)
    (finished : final.request.isFinished = true) :
    (final.registers.transmit.accepted =
        begun.registers.transmit.accepted ++ expand (uart.memory.slice buf size) <->
      Reaches (guarded OutputStep Spacious) begun events final) ∧
    (final.registers.transmit.dropped = begun.registers.transmit.dropped <->
      Reaches (guarded OutputStep Spacious) begun events final) := by
  rcases writing_start started with ⟨writing, empty, capacity, sameBuf, sameMemory⟩
  have onward : forall before event after,
      begun.Writing before -> OutputStep before event after -> begun.Writing after :=
    fun _ _ _ writing taken => (writing.step taken).1
  have still := reached.invariant begun.Writing writing onward
  have size_eq : final.request.size = final.request.capacity := of_decide_eq_true finished
  have whole : final.transferred = uart.memory.slice buf size := by
    rw [transferred, size_eq, still.capacity, still.buf, still.memory, capacity, sameBuf, sameMemory]
  have delivered : begun.Delivered begun := by
    rw [Delivered, transferred, empty]
    exact (List.append_nil _).symm
  constructor
  · rw [← whole]
    exact reached.iff_guarded begun.Writing begun.Delivered writing delivered onward
      fun _ _ _ writing taken => writing.delivered_iff taken
  · exact reached.iff_guarded begun.Writing begun.NothingDropped writing rfl onward
      fun _ _ _ writing taken => writing.nothingDropped_iff taken

/-- A UART whose transmit FIFO holds a number of characters, with a buffer of
two characters in the memory. -/
def occupiedUart (occupied : Nat) : UART where
  registers := { receive := ⟨[], []⟩, transmit := { depth := 16, occupied := occupied } }
  request := {}
  memory := fun address => if address = 0 then 65 else newline

/-- Two free places are not enough for a character and a line break, unless one
more is sent in time. -/
theorem output_delivered_sent_between :
    Exists fun begun => Exists fun final =>
      (occupiedUart 14).start 0 2 true = some begun ∧
      final.request.isFinished = true ∧
      final.registers.transmit.accepted = begun.registers.transmit.accepted ++ [65, 10, 13] ∧
      Reaches (guarded OutputStep Spacious) begun [.irq [{}, { drainedBetween := 1 }]] final := by
  have started : (occupiedUart 14).start 0 2 true =
      some (((occupiedUart 14).start 0 2 true).get rfl) := rfl
  have reached : Reaches OutputStep (((occupiedUart 14).start 0 2 true).get rfl)
      [.irq [{}, { drainedBetween := 1 }]] _ := .tail .refl rfl
  exact ⟨_, _, started, rfl, rfl, (output_delivered started reached rfl).1.mp rfl⟩

/-- A newline that takes the last free place is sent without its carriage
return. -/
theorem carriage_return_lost :
    Exists fun begun => Exists fun final =>
      (occupiedUart 14).start 0 2 true = some begun ∧
      Reaches OutputStep begun [.irq []] final ∧ final.request.isFinished = true ∧
      expand ((occupiedUart 14).memory.slice 0 2) = [65, 10, 13] ∧
      final.registers.transmit.accepted = begun.registers.transmit.accepted ++ [65, 10] ∧
      final.registers.transmit.accepted ≠
        begun.registers.transmit.accepted ++ expand ((occupiedUart 14).memory.slice 0 2) ∧
      final.registers.transmit.dropped = [13] :=
  ⟨_, _, rfl, .tail .refl rfl, rfl, rfl, rfl, by decide, rfl⟩

end UART

end Kernel
end Pinyon
