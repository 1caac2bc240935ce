import Chip8.Cpu.Arithmetic
import Chip8.Cpu.Basic
import Chip8.Instruction.Encoding
import Chip8.Log

/-!
# Executing instructions

The effect of each instruction. When one is executed the program counter has already moved past it,
so a jump stores its target and a skip moves on once more. An instruction that fails leaves the
processor as it found it: each of them checks before it stores anything.
-/

namespace Chip8

namespace Cpu

/-- What executing an instruction leaves behind. -/
abbrev Execution := Outcome Cpu (Except Error Unit)

/-- The execution that succeeded with a state. -/
def success (after : Cpu) : Execution where
  state := after
  answer := .ok ()

/-- The execution that failed and left the state alone. -/
def failure (c : Cpu) (e : Error) : Execution where
  state := c
  answer := .error e

/-- Stores the result of an operation in its first register, and then the flag if it has one, so
that the flag is what remains when the first register is the flag register. -/
def combine (c : Cpu) (operation : Operation) (x y : Register) : Cpu :=
  let a := c.get x
  let b := c.get y
  let stored := c.put x (operation.result a b)
  match operation.flag? a b with
  | some set => stored.putFlag set
  | none => stored

/-- The sprite in memory at the index register, to be drawn where two registers say. -/
def sprite (c : Cpu) (x y : Register) (height : Fin 16) : Except Error Sprite :=
  (c.memory.read c.index height.val).map fun rows =>
    { x := (c.get x).toNat, y := (c.get y).toNat, rows := rows }

/-- Draws the sprite in memory at the index register; the flag tells whether it collided. -/
def drawSprite (c : Cpu) (x y : Register) (height : Fin 16) : Execution :=
  match c.sprite x y height with
  | .error e => failure c e
  | .ok sprite =>
    let drawing := c.screen.draw sprite
    success ({ c with screen := drawing.screen, frameWaiting := true }.putFlag drawing.collided)

/-- The three decimal digits of a byte, hundreds first. -/
def decimalDigits (b : UInt8) : List UInt8 :=
  [b / 100, b / 10 % 10, b % 10]

/-- Stores bytes in memory at the index register, which stays where it is. -/
def store (c : Cpu) (bytes : List UInt8) : Execution :=
  match c.memory.write c.index bytes with
  | .error e => failure c e
  | .ok memory => success { c with memory := memory }

/-- The registers up to one, that one included. -/
def registersUpTo (c : Cpu) (x : Register) : List UInt8 :=
  c.registers.toList.take (x.val + 1)

/-- Reads the registers up to one from memory at the index register, which stays where it is. -/
def loadRegisters (c : Cpu) (x : Register) : Execution :=
  match c.memory.read c.index (x.val + 1) with
  | .error e => failure c e
  | .ok bytes =>
    success { c with registers := Vector.ofFn fun r => bytes[r.val]?.getD (c.get r) }

/-- Goes on at an address and remembers the present one. -/
def call (c : Cpu) (target : Address) : Execution :=
  match c.stack.push c.pc with
  | .error e => failure c e
  | .ok stack => success { c with stack := stack, pc := target.toWord }

/-- Goes back to the address on top of the call stack. -/
def returnToCaller (c : Cpu) : Execution :=
  match c.stack.pop with
  | .error e => failure c e
  | .ok (address, stack) => success { c with stack := stack, pc := address }

/-- Stops executing instructions until a key is pressed. -/
def awaitKey (c : Cpu) (x : Register) : Execution where
  state := { c with mode := .awaitingKey x }
  answer := .ok ()
  log := [.awaitingKey x]

/-- Stores the next random byte, masked. A byte is drawn whatever the mask. -/
def drawRandom (c : Cpu) (x : Register) (mask : UInt8) : Cpu :=
  { c with random := c.random.next }.put x (c.random.current &&& mask)

/-- The effect of an instruction. -/
def execute (c : Cpu) : Instruction → Execution
  | .clearScreen => success { c with screen := .blank, frameWaiting := true }
  | .returnToCaller => c.returnToCaller
  | .jump target => success { c with pc := target.toWord }
  | .call target => c.call target
  | .skipIfByte x byte => success (c.skipIf (c.get x == byte))
  | .skipUnlessByte x byte => success (c.skipIf (c.get x != byte))
  | .skipIfSame x y => success (c.skipIf (c.get x == c.get y))
  | .setByte x byte => success (c.put x byte)
  | .addByte x byte => success (c.put x (c.get x + byte))
  | .combine operation x y => success (c.combine operation x y)
  | .skipUnlessSame x y => success (c.skipIf (c.get x != c.get y))
  | .setIndex target => success { c with index := target.toWord }
  | .jumpWithOffset target => success { c with pc := target.toWord + (c.get .zero).toUInt16 }
  | .drawRandom x mask => success (c.drawRandom x mask)
  | .drawSprite x y height => c.drawSprite x y height
  | .skipIfHeld x => success (c.skipIf (c.keypad.isHeld (c.get x)))
  | .skipUnlessHeld x => success (c.skipIf (!c.keypad.isHeld (c.get x)))
  | .readDelay x => success (c.put x c.delay)
  | .awaitKey x => c.awaitKey x
  | .setDelay x => success { c with delay := c.get x }
  | .setSound x => success { c with sound := c.get x }
  | .advanceIndex x => success { c with index := c.index + (c.get x).toUInt16 }
  | .pointAtGlyph x => success { c with index := Font.glyphAddress (c.get x) }
  | .storeDigits x => c.store (decimalDigits (c.get x))
  | .storeRegisters x => c.store (c.registersUpTo x)
  | .loadRegisters x => c.loadRegisters x

end Cpu

end Chip8
