import Chip8.Clock
import Chip8.Cpu.Basic
import Chip8.Log

/-!
# The machine

A machine is a processor with a clock for its timers, the knowledge whether a program was loaded,
and the fault that stopped the program, if one did. This module holds the requests that come from
outside while the program stands still: loading a program, pressing and releasing keys, and taking
the frame that waits to be shown. A request that is refused changes nothing.
-/

namespace Chip8

/-- What is chosen when a machine is made. -/
structure Config where
  /-- The time between ticks of the timers in nanoseconds. -/
  timerInterval : Nat := Clock.defaultInterval
  /-- The seed of the random bytes, unless they are to differ from run to run. -/
  seed : Option UInt64 := none
  deriving DecidableEq, Repr

namespace Config

/-- Timers that count down a number of times a second. -/
def withTimerHz (config : Config) (hz : UInt32) : Config :=
  { config with timerInterval := Clock.period hz.toNat }

/-- Random bytes that are the same in every run. -/
def withSeed (config : Config) (seed : UInt64) : Config :=
  { config with seed := some seed }

end Config

/-- A machine. -/
structure Machine where
  /-- The processor. -/
  cpu : Cpu
  /-- The clock that times the countdown of the timers. -/
  clock : Clock
  /-- Whether a program was loaded. -/
  loaded : Bool
  /-- What stopped the program, if it has stopped. -/
  fault : Option Fault
  deriving DecidableEq

namespace Machine

/-- A new machine. The given key serves for random bytes if the configuration has no seed. -/
def new (config : Config) (entropy : Random.Key) : Machine where
  cpu := .initial { key := (config.seed.map Random.Key.ofSeed).getD entropy }
  clock := { interval := config.timerInterval }
  loaded := false
  fault := none

/-- Whether a tone should sound. -/
def sounds (m : Machine) : Bool :=
  m.cpu.sound > 0

/-- Whether the program waits for a key. -/
def isAwaitingKey (m : Machine) : Bool :=
  m.cpu.mode != .running

/-- A request that was refused and changed nothing. -/
def refuse (m : Machine) (e : Error) : Outcome Machine (Except Error Unit) where
  state := m
  answer := .error e

/-- Puts a program in memory. A machine takes one program only. -/
def load (m : Machine) (program : List UInt8) : Outcome Machine (Except Error Unit) :=
  if m.loaded then m.refuse .alreadyLoaded
  else match m.cpu.memory.load program with
    | .error e => m.refuse e
    | .ok memory =>
      { state := { m with
          cpu := { m.cpu with memory := memory, pc := Memory.programStart }
          loaded := true }
        answer := .ok ()
        log := [.loaded program.length Memory.programStart] }

/-- Hands a key to the register that waits for one, if any does. -/
def deliver (m : Machine) (key : Key) : Outcome Machine (Except Error Unit) :=
  match m.cpu.mode with
  | .running => { state := m, answer := .ok () }
  | .awaitingKey x =>
    { state := { m with cpu := { m.cpu.put x (UInt8.ofNat key.val) with mode := .running } }
      answer := .ok ()
      log := [.keyStored key x] }

/-- Presses the key that a byte names, and hands it to the register that waits for one. -/
def press (m : Machine) (b : UInt8) : Outcome Machine (Except Error Unit) :=
  match Key.ofByte b with
  | .error e => m.refuse e
  | .ok key => { m with cpu := { m.cpu with keypad := m.cpu.keypad.hold key } }.deliver key

/-- Releases the key that a byte names. -/
def release (m : Machine) (b : UInt8) : Outcome Machine (Except Error Unit) :=
  match Key.ofByte b with
  | .error e => m.refuse e
  | .ok key =>
    { state := { m with cpu := { m.cpu with keypad := m.cpu.keypad.letGo key } }
      answer := .ok () }

/-- Takes the screen to be shown, if it was drawn on since it was last taken. -/
def takeFrame (m : Machine) : Outcome Machine (Option Screen) :=
  if m.cpu.frameWaiting then
    { state := { m with cpu := { m.cpu with frameWaiting := false } }
      answer := some m.cpu.screen }
  else
    { state := m, answer := none }

end Machine

end Chip8
