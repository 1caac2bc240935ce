import Chip8.Cpu.Execute
import Chip8.Machine.Basic

/-!
# Stepping

One step of a machine: the clock is looked at, the timers count down if it ticked, and unless the
program waits for a key the next instruction is fetched, decoded and executed. A step that fails
stops the program for good. The program counter then points at the instruction at fault, and every
later step answers with the same fault.
-/

namespace Chip8

namespace Machine

/-- What a step leaves behind. -/
abbrev Stepped := Outcome Machine (Except Fault Unit)

/-- Looks at the clock, and counts both timers down if it ticked. -/
def serviceTimers (m : Machine) (now : Nat) : Machine :=
  let (clock, ticked) := m.clock.tick now
  let cpu :=
    if ticked then
      { m.cpu with delay := countDown m.cpu.delay, sound := countDown m.cpu.sound }
    else m.cpu
  { m with cpu := cpu, clock := clock }

/-- Stops the program with a fault at the program counter. -/
def halt (m : Machine) (word : Option UInt16) (e : Error) (log : List Log.Entry) : Stepped :=
  let fault : Fault := { pc := m.cpu.pc, word := word, error := e }
  { state := { m with fault := some fault }, answer := .error fault, log := log }

/-- The report of an instruction that the program counter points at. -/
def trace (m : Machine) (word : UInt16) (instruction : Instruction) : Log.Trace where
  word := word
  instruction := instruction
  registers := m.cpu.registers
  index := m.cpu.index
  pc := m.cpu.pc

/-- Executes an instruction that the program counter points at. -/
def perform (m : Machine) (word : UInt16) (instruction : Instruction) : Stepped :=
  let done := m.cpu.advance.execute instruction
  let log := .executing (m.trace word instruction) :: done.log
  match done.answer with
  | .ok () => { state := { m with cpu := done.state }, answer := .ok (), log := log }
  | .error e => { m with cpu := { done.state with pc := m.cpu.pc } }.halt (some word) e log

/-- Fetches, decodes and executes the next instruction. -/
def dispatch (m : Machine) : Stepped :=
  match m.cpu.memory.readWord m.cpu.pc with
  | .error e => m.halt none e []
  | .ok word =>
    match Instruction.decode word with
    | .error e => m.halt (some word) e []
    | .ok instruction => m.perform word instruction

/-- Executes the next instruction unless the program waits for a key. -/
def proceed (m : Machine) : Stepped :=
  match m.cpu.mode with
  | .awaitingKey _ => { state := m, answer := .ok () }
  | .running => m.dispatch

/-- One step at a time given in nanoseconds. -/
def step (m : Machine) (now : Nat) : Stepped :=
  match m.fault with
  | some fault => { state := m, answer := .error fault }
  | none =>
    if m.loaded then (m.serviceTimers now).proceed
    else
      { state := m, answer := .error { pc := m.cpu.pc, word := none, error := .nothingLoaded } }

end Machine

end Chip8
