import Chip8.CallStack
import Chip8.Keypad.Basic
import Chip8.Memory.Basic
import Chip8.Random.Source
import Chip8.Register
import Chip8.Screen.Sprite

/-!
# The processor

All that a program can see or change: the registers, the index register, the program counter, the
two timers, the call stack, memory, the screen, the keypad and the source of random bytes.
-/

namespace Chip8

/-- Whether instructions are executed. -/
inductive Mode where
  /-- They are. -/
  | running
  /-- They are not until a key is pressed, which is then stored in a register. -/
  | awaitingKey (x : Register)
  deriving DecidableEq, Repr

/-- The state of the processor and all that is attached to it. -/
structure Cpu where
  /-- The sixteen registers. -/
  registers : Vector UInt8 16
  /-- The index register, which points into memory. -/
  index : UInt16
  /-- The address of the next instruction. -/
  pc : UInt16
  /-- The timer that programs read. -/
  delay : UInt8
  /-- The timer that sounds a tone while it is not zero. -/
  sound : UInt8
  /-- The return addresses of the calls in progress. -/
  stack : CallStack
  /-- The addressable memory. -/
  memory : Memory
  /-- The screen. -/
  screen : Screen
  /-- Whether the screen was drawn on since it was last shown. -/
  frameWaiting : Bool
  /-- The keys that are held. -/
  keypad : Keypad
  /-- Whether instructions are executed. -/
  mode : Mode
  /-- Where random bytes come from. -/
  random : Random.Source
  deriving DecidableEq

namespace Cpu

/-- The processor when it is switched on: everything zero or empty except for the font, and the
program counter at the start of the program. -/
def initial (random : Random.Source) : Cpu where
  registers := Vector.replicate 16 0
  index := 0
  pc := Memory.programStart
  delay := 0
  sound := 0
  stack := .empty
  memory := .initial
  screen := .blank
  frameWaiting := false
  keypad := .released
  mode := .running
  random := random

/-- What a register holds. -/
def get (c : Cpu) (x : Register) : UInt8 :=
  c.registers[x]

/-- Stores a byte in a register. -/
def put (c : Cpu) (x : Register) (b : UInt8) : Cpu :=
  { c with registers := c.registers.set x b }

/-- Stores a flag: one if it is set, and zero if it is not. -/
def putFlag (c : Cpu) (set : Bool) : Cpu :=
  c.put .flag (if set then 1 else 0)

/-- How far the program counter moves for an instruction. -/
def instructionSize : UInt16 := 2

/-- Moves past one instruction. -/
def advance (c : Cpu) : Cpu :=
  { c with pc := c.pc + instructionSize }

/-- Moves past one instruction if a condition holds. -/
def skipIf (c : Cpu) (condition : Bool) : Cpu :=
  if condition then c.advance else c

/-- Storing a byte in a register changes what that register holds, and no other. -/
theorem get_put (c : Cpu) (x : Register) (b : UInt8) (y : Register) :
    (c.put x b).get y = if y = x then b else c.get y := by
  by_cases h : y = x
  · subst h
    simp [get, put]
  · have hne : x.val ≠ y.val := fun e => h (Fin.ext e.symm)
    simp [get, put, h, hne]

end Cpu

end Chip8
