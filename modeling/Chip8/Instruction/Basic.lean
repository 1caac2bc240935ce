import Chip8.Register

/-!
# Instructions

The instruction set, with operands already taken out of the word that encodes them. Registers are
four bits, addresses twelve and byte operands eight, so every value of the type has an encoding.
-/

namespace Chip8

/-- A 12-bit address, the widest that fits in an instruction. -/
abbrev Address := Fin 4096

/-- An address as a 16-bit word. -/
def Address.toWord (a : Address) : UInt16 :=
  UInt16.ofNat a.val

/-- The operations on two registers; each stores its result in the first. -/
inductive Operation where
  /-- The second operand. -/
  | copy
  /-- The bitwise or. -/
  | or
  /-- The bitwise and. -/
  | and
  /-- The bitwise exclusive or. -/
  | xor
  /-- The sum; the flag is the carry. -/
  | add
  /-- The first operand less the second; the flag is set when nothing is borrowed. -/
  | subtract
  /-- The first operand shifted right by one; the flag is the bit shifted out. -/
  | shiftRight
  /-- The second operand less the first; the flag is set when nothing is borrowed. -/
  | subtractFrom
  /-- The first operand shifted left by one; the flag is the bit shifted out. -/
  | shiftLeft
  deriving DecidableEq, Repr

/-- A decoded instruction. -/
inductive Instruction where
  /-- Turns every pixel off. -/
  | clearScreen
  /-- Goes back to the address on top of the call stack. -/
  | returnToCaller
  /-- Goes on at an address. -/
  | jump (target : Address)
  /-- Goes on at an address and remembers where to return. -/
  | call (target : Address)
  /-- Skips the next instruction if a register holds a byte. -/
  | skipIfByte (x : Register) (byte : UInt8)
  /-- Skips the next instruction unless a register holds a byte. -/
  | skipUnlessByte (x : Register) (byte : UInt8)
  /-- Skips the next instruction if two registers hold the same byte. -/
  | skipIfSame (x y : Register)
  /-- Stores a byte in a register. -/
  | setByte (x : Register) (byte : UInt8)
  /-- Adds a byte to a register, without a flag. -/
  | addByte (x : Register) (byte : UInt8)
  /-- Combines two registers. -/
  | combine (operation : Operation) (x y : Register)
  /-- Skips the next instruction unless two registers hold the same byte. -/
  | skipUnlessSame (x y : Register)
  /-- Points the index register at an address. -/
  | setIndex (target : Address)
  /-- Goes on at an address plus the first register. -/
  | jumpWithOffset (target : Address)
  /-- Stores a random byte, masked. -/
  | drawRandom (x : Register) (mask : UInt8)
  /-- Draws a sprite of so many rows from memory at the index register. -/
  | drawSprite (x y : Register) (height : Fin 16)
  /-- Skips the next instruction if the key that a register names is held. -/
  | skipIfHeld (x : Register)
  /-- Skips the next instruction unless the key that a register names is held. -/
  | skipUnlessHeld (x : Register)
  /-- Stores the delay timer in a register. -/
  | readDelay (x : Register)
  /-- Waits for a key and stores it in a register. -/
  | awaitKey (x : Register)
  /-- Sets the delay timer from a register. -/
  | setDelay (x : Register)
  /-- Sets the sound timer from a register. -/
  | setSound (x : Register)
  /-- Adds a register to the index register. -/
  | advanceIndex (x : Register)
  /-- Points the index register at the glyph of a hexadecimal digit. -/
  | pointAtGlyph (x : Register)
  /-- Stores the three decimal digits of a register in memory. -/
  | storeDigits (x : Register)
  /-- Stores the registers up to one in memory. -/
  | storeRegisters (x : Register)
  /-- Reads the registers up to one from memory. -/
  | loadRegisters (x : Register)
  deriving DecidableEq, Repr

end Chip8
