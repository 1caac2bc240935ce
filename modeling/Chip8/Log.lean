import Chip8.Instruction.Disassembly

/-!
# The log

What a machine reports while it works. Every report has a level and a text.
-/

namespace Chip8

namespace Log

/-- How much a report matters. -/
inductive Level where
  /-- A failure that ends the run. -/
  | error
  /-- An event of interest to the user. -/
  | info
  /-- An event of interest when looking for a mistake. -/
  | debug
  /-- A report of every instruction. -/
  | trace
  deriving DecidableEq, Repr

/-- The name of a level. -/
def Level.text : Level → String
  | .error => "ERROR"
  | .info => "INFO"
  | .debug => "DEBUG"
  | .trace => "TRACE"

/-- An instruction that is about to be executed, with the registers as it finds them. -/
structure Trace where
  /-- The word that was fetched. -/
  word : UInt16
  /-- The instruction that the word encodes. -/
  instruction : Instruction
  /-- The registers. -/
  registers : Vector UInt8 16
  /-- The index register. -/
  index : UInt16
  /-- The address of the instruction. -/
  pc : UInt16
  deriving DecidableEq

/-- The registers in hexadecimal, in brackets and separated by commas. -/
def registersText (registers : Vector UInt8 16) : String :=
  "[" ++ ", ".intercalate (registers.toList.map fun b => Text.hex 2 b.toNat) ++ "]"

/-- The line for an instruction: its word, its text, the registers, the index register and its
address. -/
def Trace.text (t : Trace) : String :=
  Text.hex 4 t.word.toNat ++ " " ++ t.instruction.text ++ " v" ++ registersText t.registers
    ++ " i" ++ Text.hex 4 t.index.toNat ++ " pc" ++ Text.hex 4 t.pc.toNat

/-- A report of a machine. -/
inductive Entry where
  /-- A program of so many bytes was put in memory at an address. -/
  | loaded (size : Nat) (start : UInt16)
  /-- An instruction is about to be executed. -/
  | executing (trace : Trace)
  /-- The program waits for a key. -/
  | awaitingKey (x : Register)
  /-- A key was stored in the register that waited for it. -/
  | keyStored (key : Fin 16) (x : Register)
  deriving DecidableEq

/-- The level of a report. -/
def Entry.level : Entry → Level
  | .executing _ => .trace
  | _ => .debug

/-- The text of a report. -/
def Entry.text : Entry → String
  | .loaded size start =>
    "loaded " ++ Text.decimal size ++ " byte rom at " ++ Text.hex 4 start.toNat
  | .executing trace => trace.text
  | .awaitingKey x => "awaiting key press for " ++ x.text
  | .keyStored key x => "key " ++ Text.hex 1 key.val ++ " written to " ++ x.text

/-- The line for a report: its level and its text. -/
def Entry.line (e : Entry) : String :=
  e.level.text ++ " " ++ e.text

end Log

/-- What an operation leaves behind: the state after it, its answer, and what it reported. -/
structure Outcome (σ : Type) (α : Type) where
  /-- The state after the operation. -/
  state : σ
  /-- What the operation answers. -/
  answer : α
  /-- What the operation reported, in order. -/
  log : List Log.Entry := []

end Chip8
