import Pinyon.Library.History
import Pinyon.Library.Wrapping

namespace Pinyon
namespace Kernel

open Library

/-!
# The system timer

The timer has a counter that runs on its own, and the code reads its lower 32 bits
several times in a call.  A call is therefore given how many ticks pass in front of
each of its readings.
-/

/-- `TIMER_HZ`. -/
def timerHz : BitVec 32 := 1000000

/-- `SYS_HZ_BITS`. -/
def sysHzBits : Nat := 3

/-- `FALLBACK_SYS_HZ_SCALER`. -/
def fallbackSysHzScaler : BitVec 32 := 32

/-- `FALLBACK_SYS_HZ_SCALER_BITS`. -/
def fallbackSysHzScalerBits : Nat := 5

/-- The registers that the code uses, with the whole counter, and the two static
variables of the driver. -/
structure SystemTimer where
  control : BitVec 32
  counter : Nat
  compare1 : BitVec 32
  compare3 : BitVec 32
  jiffiesSinceBoot : BitVec 32
  timerCounterMatch : BitVec 32
deriving DecidableEq, Repr

namespace SystemTimer

def lowerBits (timer : SystemTimer) : BitVec 32 :=
  BitVec.ofNat 32 timer.counter

/-- Time passes. -/
def pass (ticks : Nat) (timer : SystemTimer) : SystemTimer :=
  { timer with counter := timer.counter + ticks }

/-- `control |= (1 << 1)`.  Writing a match flag clears it. -/
def clearMatch (timer : SystemTimer) : SystemTimer :=
  { timer with control := timer.control &&& ~~~(timer.control ||| 1 <<< 1) }

/-- `compare3 = lower_bits + (timer_counter_match << FALLBACK_SYS_HZ_SCALER_BITS)`. -/
def armFallback (timer : SystemTimer) : SystemTimer :=
  { timer with
    compare3 := timer.lowerBits + timer.timerCounterMatch <<< fallbackSysHzScalerBits }

def init (first second : Nat) (timer : SystemTimer) : SystemTimer :=
  let timer := { timer with timerCounterMatch := timerHz >>> sysHzBits }
  let timer := timer.pass first
  let timer := { timer with compare1 := timer.lowerBits + timer.timerCounterMatch }
  { (timer.pass second).armFallback.clearMatch with jiffiesSinceBoot := 0 }

/-- The loop of `reinit`; it is not over if the readings run out. -/
def catchUp : List Nat -> SystemTimer -> Option SystemTimer
  | [], _ => none
  | ticks :: delays, timer =>
      let timer := timer.pass ticks
      if timer.compare1 < timer.lowerBits then
        catchUp delays { timer with compare1 := timer.compare1 + timer.timerCounterMatch }
      else some timer

def reinit (delays : List Nat) (last : Nat) (timer : SystemTimer) : Option SystemTimer := do
  let timer <- timer.catchUp delays
  return (timer.pass last).armFallback.clearMatch

def jiffiesSinceLastMatch (timer : SystemTimer) : BitVec 32 :=
  if timer.compare3 < timer.lowerBits then fallbackSysHzScaler else 1

def matched (timer : SystemTimer) : Bool :=
  0 < timer.control &&& 0x3

/-- `handle_irq`; `none` is a panic, or a loop that is not over. -/
def handleIrq (first : Nat) (delays : List Nat) (last : Nat) (timer : SystemTimer) :
    Option SystemTimer :=
  if timer.matched = false then none
  else do
    let timer := timer.pass first
    let jifDiff := timer.jiffiesSinceLastMatch
    let timer <- timer.reinit delays last
    return { timer with jiffiesSinceBoot := timer.jiffiesSinceBoot + jifDiff }

end SystemTimer

end Kernel
end Pinyon
