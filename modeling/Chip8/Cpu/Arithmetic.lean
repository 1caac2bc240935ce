import Chip8.Instruction.Basic

/-!
# Arithmetic on two registers

Each operation takes the bytes of two registers to a result and, for the arithmetic ones, a flag.
Sums and differences are taken modulo 256.
-/

namespace Chip8.Operation

/-- The result of an operation on two bytes. -/
def result (a b : UInt8) : Operation → UInt8
  | copy => b
  | or => a ||| b
  | and => a &&& b
  | xor => a ^^^ b
  | add => a + b
  | subtract => a - b
  | shiftRight => a >>> 1
  | subtractFrom => b - a
  | shiftLeft => a <<< 1

/-- The flag of an operation on two bytes: the carry of a sum, the absence of a borrow of a
difference, or the bit that a shift drops. Copying and the bitwise operations have none. -/
def flag? (a b : UInt8) : Operation → Option Bool
  | copy => none
  | or => none
  | and => none
  | xor => none
  | add => some (decide (256 ≤ a.toNat + b.toNat))
  | subtract => some (decide (b ≤ a))
  | shiftRight => some (a &&& 0x01 == 0x01)
  | subtractFrom => some (decide (a ≤ b))
  | shiftLeft => some (a &&& 0x80 == 0x80)

end Chip8.Operation
