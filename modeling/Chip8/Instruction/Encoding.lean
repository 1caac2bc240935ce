import Chip8.Error
import Chip8.Instruction.Basic

/-!
# The encoding of instructions

An instruction is one 16-bit word, read as four hexadecimal digits. The first digit is the class of
the instruction; the others are operands or tell the instructions of a class apart. A register is
one digit, a byte the last two, an address the last three. `decode` reads a word, and `encode`
writes an instruction.
-/

namespace Chip8

/-- The four hexadecimal digits of an instruction word. -/
structure WordDigits where
  /-- The class of the instruction, the most significant digit. -/
  kind : Fin 16
  /-- The second digit, the first register of most instructions. -/
  x : Fin 16
  /-- The third digit, the second register of some instructions. -/
  y : Fin 16
  /-- The last digit. -/
  n : Fin 16
  deriving DecidableEq, Repr

namespace WordDigits

/-- The digits of a word. -/
def ofWord (w : UInt16) : WordDigits where
  kind := Fin.ofNat 16 (w.toNat / 4096)
  x := Fin.ofNat 16 (w.toNat / 256)
  y := Fin.ofNat 16 (w.toNat / 16)
  n := Fin.ofNat 16 w.toNat

/-- The word that has these digits. -/
def toWord (d : WordDigits) : UInt16 :=
  UInt16.ofNat (d.kind.val * 4096 + d.x.val * 256 + d.y.val * 16 + d.n.val)

/-- The address in the last three digits. -/
def address (d : WordDigits) : Address :=
  ⟨d.x.val * 256 + d.y.val * 16 + d.n.val, by omega⟩

/-- The byte in the last two digits. -/
def byte (d : WordDigits) : UInt8 :=
  UInt8.ofNat (d.y.val * 16 + d.n.val)

/-- The digits of a class and an address. -/
def ofAddress (kind : Fin 16) (a : Address) : WordDigits where
  kind := kind
  x := Fin.ofNat 16 (a.val / 256)
  y := Fin.ofNat 16 (a.val / 16)
  n := Fin.ofNat 16 a.val

/-- The digits of a class, a register and a byte. -/
def ofByte (kind x : Fin 16) (b : UInt8) : WordDigits where
  kind := kind
  x := x
  y := Fin.ofNat 16 (b.toNat / 16)
  n := Fin.ofNat 16 b.toNat

/-- A word is made of its digits. -/
theorem toWord_ofWord (w : UInt16) : (ofWord w).toWord = w := by
  apply UInt16.toNat_inj.mp
  have h := w.toNat_lt
  simp only [toWord, ofWord, Fin.val_ofNat, UInt16.toNat_ofNat']
  omega

/-- The digits of a word that was made of digits are these digits. -/
theorem ofWord_toWord (d : WordDigits) : ofWord d.toWord = d := by
  obtain ⟨kind, x, y, n⟩ := d
  simp only [toWord, ofWord, UInt16.toNat_ofNat', mk.injEq, Fin.ext_iff, Fin.val_ofNat]
  omega

/-- The address that was put into digits is the address in them. -/
theorem address_ofAddress (kind : Fin 16) (a : Address) : (ofAddress kind a).address = a := by
  simp only [ofAddress, address, Fin.ext_iff, Fin.val_ofNat]
  omega

/-- The digits of the address in digits are those digits. -/
theorem ofAddress_address (d : WordDigits) : ofAddress d.kind d.address = d := by
  obtain ⟨kind, x, y, n⟩ := d
  simp only [ofAddress, address, mk.injEq, Fin.ext_iff, Fin.val_ofNat, true_and]
  omega

/-- The byte that was put into digits is the byte in them. -/
theorem byte_ofByte (kind x : Fin 16) (b : UInt8) : (ofByte kind x b).byte = b := by
  apply UInt8.toNat_inj.mp
  have h := b.toNat_lt
  simp only [ofByte, byte, Fin.val_ofNat, UInt8.toNat_ofNat']
  omega

/-- The digits of the byte in digits are those digits. -/
theorem ofByte_byte (d : WordDigits) : ofByte d.kind d.x d.byte = d := by
  obtain ⟨kind, x, y, n⟩ := d
  simp only [ofByte, byte, UInt8.toNat_ofNat', mk.injEq, Fin.ext_iff, Fin.val_ofNat, true_and]
  omega

end WordDigits

/-- The operation that a last digit selects. -/
def Operation.ofDigit? (n : Fin 16) : Option Operation :=
  match n.val with
  | 0x0 => some .copy
  | 0x1 => some .or
  | 0x2 => some .and
  | 0x3 => some .xor
  | 0x4 => some .add
  | 0x5 => some .subtract
  | 0x6 => some .shiftRight
  | 0x7 => some .subtractFrom
  | 0xE => some .shiftLeft
  | _ => none

/-- The last digit that selects an operation. -/
def Operation.digit : Operation → Fin 16
  | .copy => 0x0
  | .or => 0x1
  | .and => 0x2
  | .xor => 0x3
  | .add => 0x4
  | .subtract => 0x5
  | .shiftRight => 0x6
  | .subtractFrom => 0x7
  | .shiftLeft => 0xE

/-- The last digit of an operation selects that operation. -/
theorem Operation.ofDigit?_digit (operation : Operation) :
    Operation.ofDigit? operation.digit = some operation := by
  cases operation <;> rfl

namespace Instruction

/-- The instructions of class 0, which have no operands. -/
def ofSystemDigits? (d : WordDigits) : Option Instruction :=
  if d.x = 0 then
    match d.byte.toNat with
    | 0xE0 => some clearScreen
    | 0xEE => some returnToCaller
    | _ => none
  else
    none

/-- The instructions of class E, which look at the keypad. -/
def ofKeyByte? (x : Register) (b : UInt8) : Option Instruction :=
  match b.toNat with
  | 0x9E => some (skipIfHeld x)
  | 0xA1 => some (skipUnlessHeld x)
  | _ => none

/-- The instructions of class F, on timers, the index register and memory. -/
def ofTransferByte? (x : Register) (b : UInt8) : Option Instruction :=
  match b.toNat with
  | 0x07 => some (readDelay x)
  | 0x0A => some (awaitKey x)
  | 0x15 => some (setDelay x)
  | 0x18 => some (setSound x)
  | 0x1E => some (advanceIndex x)
  | 0x29 => some (pointAtGlyph x)
  | 0x33 => some (storeDigits x)
  | 0x55 => some (storeRegisters x)
  | 0x65 => some (loadRegisters x)
  | _ => none

/-- The instruction that four digits encode, if there is one. -/
def ofDigits? (d : WordDigits) : Option Instruction :=
  match d.kind.val with
  | 0x0 => ofSystemDigits? d
  | 0x1 => some (jump d.address)
  | 0x2 => some (call d.address)
  | 0x3 => some (skipIfByte d.x d.byte)
  | 0x4 => some (skipUnlessByte d.x d.byte)
  | 0x5 => if d.n = 0 then some (skipIfSame d.x d.y) else none
  | 0x6 => some (setByte d.x d.byte)
  | 0x7 => some (addByte d.x d.byte)
  | 0x8 => (Operation.ofDigit? d.n).map fun operation => combine operation d.x d.y
  | 0x9 => if d.n = 0 then some (skipUnlessSame d.x d.y) else none
  | 0xA => some (setIndex d.address)
  | 0xB => some (jumpWithOffset d.address)
  | 0xC => some (drawRandom d.x d.byte)
  | 0xD => some (drawSprite d.x d.y d.n)
  | 0xE => ofKeyByte? d.x d.byte
  | _ => ofTransferByte? d.x d.byte

/-- The digits that encode an instruction. -/
def digits : Instruction → WordDigits
  | clearScreen => ⟨0x0, 0x0, 0xE, 0x0⟩
  | returnToCaller => ⟨0x0, 0x0, 0xE, 0xE⟩
  | jump target => .ofAddress 0x1 target
  | call target => .ofAddress 0x2 target
  | skipIfByte x byte => .ofByte 0x3 x byte
  | skipUnlessByte x byte => .ofByte 0x4 x byte
  | skipIfSame x y => ⟨0x5, x, y, 0x0⟩
  | setByte x byte => .ofByte 0x6 x byte
  | addByte x byte => .ofByte 0x7 x byte
  | combine operation x y => ⟨0x8, x, y, operation.digit⟩
  | skipUnlessSame x y => ⟨0x9, x, y, 0x0⟩
  | setIndex target => .ofAddress 0xA target
  | jumpWithOffset target => .ofAddress 0xB target
  | drawRandom x mask => .ofByte 0xC x mask
  | drawSprite x y height => ⟨0xD, x, y, height⟩
  | skipIfHeld x => .ofByte 0xE x 0x9E
  | skipUnlessHeld x => .ofByte 0xE x 0xA1
  | readDelay x => .ofByte 0xF x 0x07
  | awaitKey x => .ofByte 0xF x 0x0A
  | setDelay x => .ofByte 0xF x 0x15
  | setSound x => .ofByte 0xF x 0x18
  | advanceIndex x => .ofByte 0xF x 0x1E
  | pointAtGlyph x => .ofByte 0xF x 0x29
  | storeDigits x => .ofByte 0xF x 0x33
  | storeRegisters x => .ofByte 0xF x 0x55
  | loadRegisters x => .ofByte 0xF x 0x65

/-- The word that encodes an instruction. -/
def encode (i : Instruction) : UInt16 :=
  i.digits.toWord

/-- The instruction that a word encodes. Every other word is an error: a machine code routine if
its class is 0, and a variant that does not exist otherwise. -/
def decode (w : UInt16) : Except Error Instruction :=
  match ofDigits? (.ofWord w) with
  | some i => .ok i
  | none => .error (if (WordDigits.ofWord w).kind = 0 then .notImplemented w else .noSuchVariant w)

end Instruction

end Chip8
