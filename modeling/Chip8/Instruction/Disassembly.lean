import Chip8.Instruction.Basic

/-!
# Disassembly

The text of an instruction in the usual mnemonics: the mnemonic, a space, and the operands
separated by commas. Addresses are three hexadecimal digits, bytes two, and the height of a sprite
one.
-/

namespace Chip8

/-- The mnemonic of an operation. -/
def Operation.mnemonic : Operation → String
  | .copy => "LD"
  | .or => "OR"
  | .and => "AND"
  | .xor => "XOR"
  | .add => "ADD"
  | .subtract => "SUB"
  | .shiftRight => "SHR"
  | .subtractFrom => "SUBN"
  | .shiftLeft => "SHL"

/-- An address in three hexadecimal digits. -/
def Address.text (a : Address) : String :=
  Text.hex 3 a.val

namespace Instruction

/-- A mnemonic with one operand. -/
def unaryText (mnemonic operand : String) : String :=
  mnemonic ++ " " ++ operand

/-- A mnemonic with two operands. -/
def binaryText (mnemonic first second : String) : String :=
  unaryText mnemonic (first ++ ", " ++ second)

/-- A byte in two hexadecimal digits. -/
def byteText (b : UInt8) : String :=
  Text.hex 2 b.toNat

/-- The mnemonic and the operands of an instruction. -/
def text : Instruction → String
  | clearScreen => "CLS"
  | returnToCaller => "RET"
  | jump target => unaryText "JP" target.text
  | call target => unaryText "CALL" target.text
  | skipIfByte x byte => binaryText "SE" x.text (byteText byte)
  | skipUnlessByte x byte => binaryText "SNE" x.text (byteText byte)
  | skipIfSame x y => binaryText "SE" x.text y.text
  | setByte x byte => binaryText "LD" x.text (byteText byte)
  | addByte x byte => binaryText "ADD" x.text (byteText byte)
  | combine operation x y => binaryText operation.mnemonic x.text y.text
  | skipUnlessSame x y => binaryText "SNE" x.text y.text
  | setIndex target => binaryText "LD" "I" target.text
  | jumpWithOffset target => binaryText "JP" "V0" target.text
  | drawRandom x mask => binaryText "RND" x.text (byteText mask)
  | drawSprite x y height => binaryText "DRW" x.text (y.text ++ ", " ++ Text.hex 1 height.val)
  | skipIfHeld x => unaryText "SKP" x.text
  | skipUnlessHeld x => unaryText "SKNP" x.text
  | readDelay x => binaryText "LD" x.text "DT"
  | awaitKey x => binaryText "LD" x.text "K"
  | setDelay x => binaryText "LD" "DT" x.text
  | setSound x => binaryText "LD" "ST" x.text
  | advanceIndex x => binaryText "ADD" "I" x.text
  | pointAtGlyph x => binaryText "LD" "F" x.text
  | storeDigits x => binaryText "LD" "B" x.text
  | storeRegisters x => binaryText "LD" "[I]" x.text
  | loadRegisters x => binaryText "LD" x.text "[I]"

end Instruction

end Chip8
