/-!
# The timer clock

The delay and the sound timer count down at a fixed rate in real time, however many instructions
run in between. The clock decides when. Times are nanoseconds since an arbitrary origin, and a time
before the last tick counts as no time at all. However long it has been, one look at the clock gives
at most one tick.
-/

namespace Chip8

/-- The clock that times the countdown. -/
structure Clock where
  /-- The time between ticks in nanoseconds. -/
  interval : Nat
  /-- When the clock last ticked or was started, unless it was never looked at. -/
  lastTick : Option Nat := none
  deriving DecidableEq, Repr

namespace Clock

/-- Nanoseconds in a second. -/
def second : Nat := 1000000000

/-- The time between events that happen a number of times a second, in whole nanoseconds. No
events a second counts as one. -/
def period (hz : Nat) : Nat :=
  second / max hz 1

/-- A second shared out among events, in whole nanoseconds. There is no share if there are no
events. -/
def share? (hz : UInt32) : Option Nat :=
  if hz = 0 then none else some (second / hz.toNat)

/-- The usual time between ticks, of a sixtieth of a second. -/
def defaultInterval : Nat := period 60

/-- The usual time between instructions, of which five hundred are executed a second. -/
def defaultCycle : Nat := period 500

/-- The clock after a look at it, and whether it ticked. The first look only starts it. -/
def tick (c : Clock) (now : Nat) : Clock × Bool :=
  match c.lastTick with
  | none => ({ c with lastTick := some now }, false)
  | some last =>
    if c.interval ≤ now - last then ({ c with lastTick := some now }, true) else (c, false)

end Clock

/-- A timer one tick later: one less, down to zero. -/
def countDown (timer : UInt8) : UInt8 :=
  if timer = 0 then 0 else timer - 1

end Chip8
