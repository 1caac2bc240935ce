import Chip8.Proofs.Checked.Memory
import Chip8.Proofs.Checked.Screen
import Chip8.Proofs.Cpu.Flow

/-!
# Checked execution

Every instruction with the arithmetic that it does not take modulo the width done by checked
operations, and with registers, memory and pixels read and written by bounds. What an instruction
takes modulo the width stays as it is: the program counter and skips, sums and differences of
bytes, and the advance of the index register.

`execute_eq` goes through the instructions. What makes an operation safe is settled before it is
reached: a target has twelve bits and an offset eight, a register is one of sixteen, a sprite is
placed by two bytes, and a byte that names no key is refused before its bit is made.
-/

namespace Chip8.Checked

/-! ## Registers and keys -/

/-- What a register holds. -/
def get (c : Cpu) (x : Register) : Option UInt8 :=
  c.registers[x.val]?

/-- Stores a byte in a register. -/
def set (c : Cpu) (x : Register) (b : UInt8) : Option Cpu := do
  return { c with registers := ← put c.registers x.val b }

/-- Stores a flag. -/
def setFlag (c : Cpu) (flag : Bool) : Option Cpu :=
  set c .flag (if flag then 1 else 0)

/-- The bit of the key that a byte names. -/
def mask (b : UInt8) : Option (Except Error (BitVec 16)) := do
  if b > 0xF then return .error (.unknownKey b)
  else return .ok (1#16 <<< (← distance 16 b.toNat))

/-- Whether a byte names a key that is held. -/
def isHeld (pad : Keypad) (b : UInt8) : Option Bool := do
  match ← mask b with
  | .error _ => return false
  | .ok bit => return pad.bits &&& bit != 0

/-- A register can be read. -/
theorem get_eq (c : Cpu) (x : Register) : get c x = some (c.get x) :=
  Vector.getElem?_eq_getElem x.isLt

/-- A register can be written. -/
theorem set_eq (c : Cpu) (x : Register) (b : UInt8) : set c x b = some (c.put x b) := by
  rw [set, put_of_lt c.registers x.isLt]
  rfl

/-- The flag can be written. -/
theorem setFlag_eq (c : Cpu) (flag : Bool) : setFlag c flag = some (c.putFlag flag) :=
  set_eq c .flag _

/-- The bit of a key is made for a byte that names a key, and only then. -/
theorem mask_eq (b : UInt8) :
    mask b = some ((Key.ofByte b).map fun key => BitVec.twoPow 16 key.val) := by
  have hnamed : b > 0xF ↔ ¬b.toNat < 16 := by
    show (0xF : UInt8) < b ↔ ¬b.toNat < 16
    rw [UInt8.lt_iff_toNat_lt, Nat.not_lt]
    exact Iff.rfl
  unfold mask Key.ofByte
  by_cases h : b.toNat < 16
  · rw [if_neg fun hlarge => hnamed.mp hlarge h, dif_pos h, distance_of_lt h]
    rfl
  · rw [if_pos (hnamed.mpr h), dif_neg h]
    rfl

/-- A key can be looked up. -/
theorem isHeld_eq (pad : Keypad) (b : UInt8) : isHeld pad b = some (pad.isHeld b) := by
  rw [isHeld, mask_eq, Option.bind_eq_bind, Option.bind_some, Keypad.isHeld]
  cases Key.ofByte b with
  | error e => rfl
  | ok key =>
    -- Of the keys that are held, the bit leaves this one, and a bit is not zero.
    have hset : BitVec.twoPow 16 key.val ≠ 0 := by
      intro hzero
      have hbit := congrArg (fun bits => bits.getLsbD key.val) hzero
      simp [key.isLt] at hbit
    have hbit : (pad.bits &&& BitVec.twoPow 16 key.val != 0) = pad.holds key := by
      rw [BitVec.and_twoPow, Keypad.holds]
      cases pad.bits.getLsbD key.val
      · rfl
      · exact bne_iff_ne.mpr hset
    exact congrArg some hbit

/-! ## Instructions -/

/-- The result of an operation on two bytes. -/
def result (a b : UInt8) : Operation → Option UInt8
  | .shiftRight => do return a >>> UInt8.ofNat (← distance 8 1)
  | .shiftLeft => do return a <<< UInt8.ofNat (← distance 8 1)
  | operation => some (operation.result a b)

/-- Stores the result of an operation in its first register, and then the flag if it has one. -/
def combine (c : Cpu) (operation : Operation) (x y : Register) : Option Cpu := do
  let a ← get c x
  let b ← get c y
  let stored ← set c x (← result a b operation)
  match operation.flag? a b with
  | some flag => setFlag stored flag
  | none => return stored

/-- Goes on so many bytes past an address. -/
def jumpWithOffset (c : Cpu) (target : Address) : Option Cpu.Execution := do
  let offset ← get c .zero
  return Cpu.success
    { c with pc := UInt16.ofNat (← fit 16 (target.toWord.toNat + offset.toNat)) }

/-- Points the index register at the glyph for the value of a register. -/
def pointAtGlyph (c : Cpu) (x : Register) : Option Cpu.Execution := do
  let offset ← fit 16 ((← get c x).toNat * Font.glyphSize.toNat)
  return Cpu.success { c with index := UInt16.ofNat (← fit 16 (Font.start.toNat + offset)) }

/-- Draws the sprite in memory at the index register; the flag tells whether it collided. -/
def drawSprite (c : Cpu) (x y : Register) (height : Fin 16) : Option Cpu.Execution := do
  let column ← get c x
  let row ← get c y
  match ← read c.memory c.index height.val with
  | .error e => return Cpu.failure c e
  | .ok rows =>
    let drawing ← draw c.screen { x := column.toNat, y := row.toNat, rows := rows }
    return Cpu.success
      (← setFlag { c with screen := drawing.screen, frameWaiting := true } drawing.collided)

/-- The three decimal digits of a byte, hundreds first. -/
def decimalDigits (b : UInt8) : Option (List UInt8) := do
  return [← quotient b 100, ← remainder (← quotient b 10) 10, ← remainder b 10]

/-- Stores bytes in memory at the index register. -/
def store (c : Cpu) (bytes : List UInt8) : Option Cpu.Execution := do
  match ← write c.memory c.index bytes with
  | .error e => return Cpu.failure c e
  | .ok memory => return Cpu.success { c with memory := memory }

/-- The registers up to one, that one included. -/
def registersUpTo (c : Cpu) (x : Register) : Option (List UInt8) := do
  slice c.registers 0 (← fit 64 (x.val + 1))

/-- Reads the registers up to one from memory at the index register. -/
def loadRegisters (c : Cpu) (x : Register) : Option Cpu.Execution := do
  let stop ← fit 64 (x.val + 1)
  match ← read c.memory c.index stop with
  | .error e => return Cpu.failure c e
  | .ok bytes => return Cpu.success { c with registers := ← copy c.registers 0 stop bytes }

/-- The effect of an instruction. -/
def execute (c : Cpu) : Instruction → Option Cpu.Execution
  | .clearScreen => return Cpu.success { c with screen := .blank, frameWaiting := true }
  | .returnToCaller => return c.returnToCaller
  | .jump target => return Cpu.success { c with pc := target.toWord }
  | .call target => return c.call target
  | .skipIfByte x byte => do return Cpu.success (c.skipIf ((← get c x) == byte))
  | .skipUnlessByte x byte => do return Cpu.success (c.skipIf ((← get c x) != byte))
  | .skipIfSame x y => do return Cpu.success (c.skipIf ((← get c x) == (← get c y)))
  | .setByte x byte => do return Cpu.success (← set c x byte)
  | .addByte x byte => do return Cpu.success (← set c x ((← get c x) + byte))
  | .combine operation x y => do return Cpu.success (← combine c operation x y)
  | .skipUnlessSame x y => do return Cpu.success (c.skipIf ((← get c x) != (← get c y)))
  | .setIndex target => return Cpu.success { c with index := target.toWord }
  | .jumpWithOffset target => jumpWithOffset c target
  | .drawRandom x mask => do
    return Cpu.success (← set { c with random := c.random.next } x (c.random.current &&& mask))
  | .drawSprite x y height => drawSprite c x y height
  | .skipIfHeld x => do return Cpu.success (c.skipIf (← isHeld c.keypad (← get c x)))
  | .skipUnlessHeld x => do return Cpu.success (c.skipIf (!(← isHeld c.keypad (← get c x))))
  | .readDelay x => do return Cpu.success (← set c x c.delay)
  | .awaitKey x => return c.awaitKey x
  | .setDelay x => do return Cpu.success { c with delay := ← get c x }
  | .setSound x => do return Cpu.success { c with sound := ← get c x }
  | .advanceIndex x => do return Cpu.success { c with index := c.index + (← get c x).toUInt16 }
  | .pointAtGlyph x => pointAtGlyph c x
  | .storeDigits x => do store c (← decimalDigits (← get c x))
  | .storeRegisters x => do store c (← registersUpTo c x)
  | .loadRegisters x => loadRegisters c x

/-- A shift by one can be made. -/
theorem result_eq (a b : UInt8) (operation : Operation) :
    result a b operation = some (operation.result a b) := by
  have hone : distance 8 1 = some 1 := distance_of_lt (by omega)
  cases operation with
  | shiftRight => rw [result, hone]; rfl
  | shiftLeft => rw [result, hone]; rfl
  | _ => rfl

/-- A checked operation on two registers is the operation. -/
theorem combine_eq (c : Cpu) (operation : Operation) (x y : Register) :
    combine c operation x y = some (c.combine operation x y) := by
  simp only [combine, get_eq, result_eq, set_eq, Option.bind_eq_bind, Option.bind_some,
    Cpu.combine]
  cases operation.flag? (c.get x) (c.get y) with
  | none => rfl
  | some flag => exact setFlag_eq _ flag

/-- A target of twelve bits and an offset of eight have a sum of sixteen. -/
theorem jumpWithOffset_eq (c : Cpu) (target : Address) :
    jumpWithOffset c target = some (c.execute (.jumpWithOffset target)) := by
  have htarget := Cpu.toNat_toWord_le target
  have hoffset := (c.get .zero).toNat_lt
  have hfits : target.toWord.toNat + (c.get .zero).toNat < 2 ^ 16 := by omega
  have hsum : UInt16.ofNat (target.toWord.toNat + (c.get .zero).toNat) =
      target.toWord + (c.get .zero).toUInt16 := by
    rw [← UInt16.toNat_inj, UInt16.toNat_ofNat', UInt16.toNat_add, UInt8.toNat_toUInt16]
  rw [jumpWithOffset, get_eq, Option.bind_eq_bind, Option.bind_some, fit_of_lt hfits,
    Option.bind_eq_bind, Option.bind_some, hsum]
  rfl

/-- Five times a byte has sixteen bits, also past the font. -/
theorem pointAtGlyph_eq (c : Cpu) (x : Register) :
    pointAtGlyph c x = some (c.execute (.pointAtGlyph x)) := by
  have hbyte := (c.get x).toNat_lt
  have hproduct : (c.get x).toNat * Font.glyphSize.toNat < 2 ^ 16 := by
    show (c.get x).toNat * 5 < 2 ^ 16
    omega
  have hsum : Font.start.toNat + (c.get x).toNat * Font.glyphSize.toNat < 2 ^ 16 := by
    show 0 + (c.get x).toNat * 5 < 2 ^ 16
    omega
  have haddress : UInt16.ofNat (Font.start.toNat + (c.get x).toNat * Font.glyphSize.toNat) =
      Font.glyphAddress (c.get x) := by
    rw [← UInt16.toNat_inj, UInt16.toNat_ofNat', Font.glyphAddress, UInt16.toNat_add,
      UInt16.toNat_mul, UInt8.toNat_toUInt16, Nat.add_mod_mod]
  rw [pointAtGlyph, get_eq, Option.bind_eq_bind, Option.bind_some, fit_of_lt hproduct,
    Option.bind_eq_bind, Option.bind_some, fit_of_lt hsum, Option.bind_some,
    haddress]
  rfl

/-- A sprite that was read is drawn from where two bytes say. -/
theorem drawSprite_eq (c : Cpu) (x y : Register) (height : Fin 16) :
    drawSprite c x y height = some (c.drawSprite x y height) := by
  have hcount : height.val ≤ Memory.size := le_size (by omega)
  simp only [drawSprite, get_eq, read_eq c.memory c.index hcount, Option.bind_eq_bind,
    Option.bind_some, Cpu.drawSprite, Cpu.sprite]
  cases hread : c.memory.read c.index height.val with
  | error e => rfl
  | ok rows =>
    -- The corner comes from two bytes, and the rows are at most fifteen.
    have hx := (c.get x).toNat_lt
    have hy := (c.get y).toNat_lt
    have hrows := Memory.length_of_read hread
    simp only [Except.map]
    rw [draw_eq c.screen (by omega) (by omega) (by omega), Option.bind_some, setFlag_eq]
    rfl

/-- A byte has three decimal digits, and ten and a hundred are not zero. -/
theorem decimalDigits_eq (b : UInt8) : decimalDigits b = some (Cpu.decimalDigits b) :=
  rfl

/-- A checked write at the index register is the write. -/
theorem store_eq (c : Cpu) {bytes : List UInt8} (h : bytes.length ≤ Memory.size) :
    store c bytes = some (c.store bytes) := by
  rw [store, write_eq c.memory c.index h, Option.bind_eq_bind, Option.bind_some, Cpu.store]
  cases c.memory.write c.index bytes <;> rfl

/-- The registers up to one are a part of the registers. -/
theorem registersUpTo_eq (c : Cpu) (x : Register) :
    registersUpTo c x = some (c.registersUpTo x) := by
  have hx := x.isLt
  have hslice := slice_of_le c.registers (show 0 + (x.val + 1) ≤ 16 by omega)
  rw [Nat.zero_add, List.drop_zero] at hslice
  rw [registersUpTo, fit_of_lt (by omega), Option.bind_eq_bind, Option.bind_some, hslice]
  rfl

/-- As many bytes are read as there are registers up to one. -/
theorem loadRegisters_eq (c : Cpu) (x : Register) :
    loadRegisters c x = some (c.loadRegisters x) := by
  have hx := x.isLt
  have hcount : x.val + 1 ≤ Memory.size := le_size (by omega)
  rw [loadRegisters, fit_of_lt (by omega), Option.bind_eq_bind, Option.bind_some,
    read_eq c.memory c.index hcount, Option.bind_eq_bind, Option.bind_some, Cpu.loadRegisters]
  cases hread : c.memory.read c.index (x.val + 1) with
  | error e => rfl
  | ok bytes =>
    -- The bytes are as many as the registers that they are copied to.
    have hlength := Memory.length_of_read hread
    have hcopy := copy_of_le c.registers (show 0 + bytes.length ≤ 16 by omega)
    rw [Nat.zero_add, hlength] at hcopy
    simp only [hcopy]
    rfl

/-- Executing an instruction never fails, and its effect is that of `Cpu.execute`. -/
theorem execute_eq (c : Cpu) (i : Instruction) : execute c i = some (c.execute i) := by
  cases i with
  | combine operation x y => rw [execute, combine_eq]; rfl
  | jumpWithOffset target => exact jumpWithOffset_eq c target
  | drawSprite x y height => exact drawSprite_eq c x y height
  | skipIfHeld x => simp only [execute, get_eq, isHeld_eq]; rfl
  | skipUnlessHeld x => simp only [execute, get_eq, isHeld_eq]; rfl
  | pointAtGlyph x => exact pointAtGlyph_eq c x
  | storeDigits x =>
    have hthree : (Cpu.decimalDigits (c.get x)).length ≤ 16 := Nat.le_of_ble_eq_true rfl
    rw [execute, get_eq, Option.bind_eq_bind, Option.bind_some, decimalDigits_eq]
    exact store_eq c (le_size hthree)
  | storeRegisters x =>
    have hcount : (c.registersUpTo x).length ≤ 16 := by
      rw [Cpu.length_registersUpTo]
      omega
    rw [execute, registersUpTo_eq]
    exact store_eq c (le_size hcount)
  | loadRegisters x => exact loadRegisters_eq c x
  | _ => simp only [execute, get_eq, set_eq]; rfl

end Chip8.Checked
