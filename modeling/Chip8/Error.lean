import Chip8.Text.Numeral

/-!
# Errors and faults

An `Error` is a reason why a request or an instruction is refused. A `Fault` is an error together
with the place where a program was stopped by it: the address, and the instruction word if one
could be fetched.
-/

namespace Chip8

/-- A reason for refusing a request or stopping a program. -/
inductive Error where
  /-- The word is a machine code routine. -/
  | notImplemented (word : UInt16)
  /-- The word's class is known, but the rest of it selects no instruction. -/
  | noSuchVariant (word : UInt16)
  /-- A return without a call to return from. -/
  | emptyCallStack
  /-- A call when every place for a return address is taken. -/
  | fullCallStack
  /-- An access to memory that does not exist, with the first missing address. -/
  | outsideMemory (address : Nat)
  /-- A program that is larger than the memory that is left for it. -/
  | programTooLarge (size limit : Nat)
  /-- A second program for one machine. -/
  | alreadyLoaded
  /-- A step of a machine that has no program. -/
  | nothingLoaded
  /-- A number that names no key. -/
  | unknownKey (key : UInt8)
  deriving DecidableEq, Repr

/-- The wording of an error. -/
def Error.message : Error → String
  | .notImplemented word => "unimplemented instruction " ++ Text.markedHex 4 word.toNat
  | .noSuchVariant word => "invalid variant of instruction " ++ Text.markedHex 4 word.toNat
  | .emptyCallStack => "returned from a subroutine with an empty call stack"
  | .fullCallStack => "call stack overflowed"
  | .outsideMemory address => "memory access out of range at " ++ Text.markedHex 4 address
  | .programTooLarge size limit =>
    "ROM is " ++ Text.decimal size ++ " bytes but at most " ++ Text.decimal limit
      ++ " fit in memory"
  | .alreadyLoaded => "a ROM has already been loaded"
  | .nothingLoaded => "no ROM has been loaded"
  | .unknownKey key => "key " ++ Text.markedHex 2 key.toNat ++ " is not on the keypad"

/-- What stopped a program, and where. -/
structure Fault where
  /-- The address of the instruction at fault. -/
  pc : UInt16
  /-- The instruction word, unless it could not be fetched. -/
  word : Option UInt16
  /-- What went wrong. -/
  error : Error
  deriving DecidableEq, Repr

/-- The wording of a fault: its error, and in brackets the place. -/
def Fault.message (fault : Fault) : String :=
  let place := "at pc " ++ Text.hex 4 fault.pc.toNat
  match fault.word with
  | some word =>
    fault.error.message ++ " (op " ++ Text.hex 4 word.toNat ++ " " ++ place ++ ")"
  | none => fault.error.message ++ " (" ++ place ++ ")"

end Chip8
