import Chip8.Proofs.Cpu.Flow
import Chip8.Proofs.Cpu.Peripherals
import Chip8.Proofs.Memory.Patch

/-!
# The footprint of an instruction

What an instruction changes, component by component. `Frame` says it of the processor before and
after: each component is tied to the few kinds of instructions that change it, memory to the bytes
that the instruction covers, and the registers to those that it names. `frame_execute` shows that
every instruction that is executed keeps to its frame.

The part of the frame that is new here is about memory, the registers and the index register
(`Confined`). The flow of control, the screen and the peripherals have modules of their own.
`memory_execute` is sharper than the frame: it says what an instruction stores where.
-/

namespace Chip8

/-- Whether an operation has a flag. -/
def Operation.hasFlag : Operation → Bool
  | .add => true
  | .subtract => true
  | .shiftRight => true
  | .subtractFrom => true
  | .shiftLeft => true
  | _ => false

/-- An operation has a flag whatever the bytes are. -/
theorem Operation.isSome_flag? (operation : Operation) (a b : UInt8) :
    (operation.flag? a b).isSome = operation.hasFlag := by
  cases operation <;> rfl

namespace Instruction

/-- Whether an instruction can change a register. -/
def writes : Instruction → Register → Bool
  | .setByte x _, r => r == x
  | .addByte x _, r => r == x
  | .combine operation x _, r => r == x || (operation.hasFlag && r == .flag)
  | .drawRandom x _, r => r == x
  | .drawSprite .., r => r == .flag
  | .readDelay x, r => r == x
  | .loadRegisters x, r => decide (r ≤ x)
  | _, _ => false

/-- How many bytes an instruction stores in memory, from the index register on. -/
def storeSize : Instruction → Nat
  | .storeDigits _ => 3
  | .storeRegisters x => x.val + 1
  | _ => 0

/-- Whether an instruction moves the index register. -/
def movesIndex : Instruction → Bool
  | .setIndex _ => true
  | .advanceIndex _ => true
  | .pointAtGlyph _ => true
  | _ => false

/-- Whether an instruction makes a call or ends one. -/
def movesStack : Instruction → Bool
  | .call _ => true
  | .returnToCaller => true
  | _ => false

/-- Whether an instruction draws a random byte. -/
def drawsRandom : Instruction → Bool
  | .drawRandom .. => true
  | _ => false

/-- Whether an instruction sets the delay timer. -/
def setsDelay : Instruction → Bool
  | .setDelay _ => true
  | _ => false

/-- Whether an instruction sets the sound timer. -/
def setsSound : Instruction → Bool
  | .setSound _ => true
  | _ => false

end Instruction

namespace Cpu

/-- The bytes that an instruction stores in memory, from the index register on. -/
def stored (c : Cpu) : Instruction → List UInt8
  | .storeDigits x => decimalDigits (c.get x)
  | .storeRegisters x => c.registersUpTo x
  | _ => []

/-- What an instruction stores is as long as its kind says. -/
theorem length_stored (c : Cpu) (i : Instruction) : (c.stored i).length = i.storeSize := by
  cases i <;> first | rfl | exact c.length_registersUpTo _

/-! ## Memory and registers -/

/-- An instruction leaves memory, the registers and the index register as they were, except for what
its kind changes. -/
structure Confined (c : Cpu) (i : Instruction) (after : Cpu) : Prop where
  /-- An instruction that stores nothing leaves memory alone. -/
  memory : i.storeSize = 0 → after.memory = c.memory
  /-- A register changes only if the instruction writes it. -/
  registers : ∀ r, i.writes r = false → after.get r = c.get r
  /-- The index register changes only if the instruction moves it. -/
  index : i.movesIndex = false → after.index = c.index

/-- An instruction of any kind may leave all of them alone. -/
theorem Confined.of_eq {c after : Cpu} {i : Instruction} (memory : after.memory = c.memory)
    (registers : after.registers = c.registers) (index : after.index = c.index) :
    c.Confined i after where
  memory := fun _ => memory
  registers := fun r _ => by rw [get, registers, get]
  index := fun _ => index

section Parts

variable (c : Cpu) (i : Instruction)

theorem confined_skipIf (condition : Bool) : c.Confined i (c.skipIf condition) := by
  cases condition <;> exact .of_eq rfl rfl rfl

theorem confined_call (target : Address) : c.Confined i (c.call target).state := by
  unfold call
  split <;> exact .of_eq rfl rfl rfl

theorem confined_returnToCaller : c.Confined i c.returnToCaller.state := by
  unfold returnToCaller
  split <;> exact .of_eq rfl rfl rfl

/-- A byte is stored in a register that the instruction writes. -/
theorem confined_put {i : Instruction} {x : Register} (h : i.writes x = true) (b : UInt8) :
    c.Confined i (c.put x b) where
  memory := fun _ => rfl
  registers := by
    intro r hr
    have hne : r ≠ x := by
      rintro rfl
      rw [h] at hr
      cases hr
    rw [get_put, if_neg hne]
  index := fun _ => rfl

theorem confined_drawRandom (x : Register) (mask : UInt8) :
    c.Confined (.drawRandom x mask) (c.drawRandom x mask) := by
  have hx : (Instruction.drawRandom x mask).writes x = true := beq_self_eq_true x
  have hput := confined_put { c with random := c.random.next } hx (c.random.current &&& mask)
  exact ⟨hput.memory, hput.registers, hput.index⟩

/-- What is confined twice is confined. -/
theorem Confined.trans {c d after : Cpu} {i : Instruction} (h : c.Confined i d)
    (h' : d.Confined i after) : c.Confined i after where
  memory := fun hs => (h'.memory hs).trans (h.memory hs)
  registers := fun r hr => (h'.registers r hr).trans (h.registers r hr)
  index := fun hi => (h'.index hi).trans (h.index hi)

theorem confined_combine (operation : Operation) (x y : Register) :
    c.Confined (.combine operation x y) (c.combine operation x y) := by
  have hx : (Instruction.combine operation x y).writes x = true := by
    simp only [Instruction.writes, beq_self_eq_true, Bool.true_or]
  unfold combine
  dsimp only
  cases hf : operation.flag? (c.get x) (c.get y) with
  | none => exact c.confined_put hx _
  | some set =>
    have hhas : operation.hasFlag = true := by
      rw [← operation.isSome_flag? (c.get x) (c.get y), hf, Option.isSome_some]
    have hflag : (Instruction.combine operation x y).writes .flag = true := by
      simp only [Instruction.writes, hhas, beq_self_eq_true, Bool.and_self, Bool.or_true]
    exact (c.confined_put hx _).trans (confined_put _ hflag _)

theorem confined_drawSprite (x y : Register) (height : Fin 16) :
    c.Confined (.drawSprite x y height) (c.drawSprite x y height).state := by
  unfold drawSprite
  split
  · exact .of_eq rfl rfl rfl
  · refine .trans ?_ (confined_put _ ?_ _)
    · exact .of_eq rfl rfl rfl
    · rfl

theorem confined_loadRegisters (x : Register) :
    c.Confined (.loadRegisters x) (c.loadRegisters x).state := by
  unfold loadRegisters
  cases hread : c.memory.read c.index (x.val + 1) with
  | error e => exact .of_eq rfl rfl rfl
  | ok bytes =>
    refine ⟨fun _ => by simp only [success], fun r hr => ?_, fun _ => by simp only [success]⟩
    -- There is no byte for a register behind the last one that is read.
    have hlt : x.val < r.val := Fin.not_le.mp (of_decide_eq_false hr)
    have hlength := Memory.length_of_read hread
    have hnone : bytes[r.val]? = none := List.getElem?_eq_none (by omega)
    simp only [success, get, Fin.getElem_fin, Vector.getElem_ofFn, hnone, Option.getD_none]

/-- Bytes are stored by an instruction that stores. -/
theorem confined_store {i : Instruction} (h : i.storeSize ≠ 0) (bytes : List UInt8) :
    c.Confined i (c.store bytes).state := by
  unfold store
  split
  · exact .of_eq rfl rfl rfl
  · exact ⟨fun hsize => absurd hsize h, fun _ _ => rfl, fun _ => rfl⟩

end Parts

/-- An instruction changes memory, the registers and the index register as its kind says. -/
theorem confined_execute (c : Cpu) (i : Instruction) : c.Confined i (c.execute i).state := by
  cases i with
  | returnToCaller => exact c.confined_returnToCaller _
  | call target => exact c.confined_call _ target
  | skipIfByte x byte => exact c.confined_skipIf _ _
  | skipUnlessByte x byte => exact c.confined_skipIf _ _
  | skipIfSame x y => exact c.confined_skipIf _ _
  | skipUnlessSame x y => exact c.confined_skipIf _ _
  | skipIfHeld x => exact c.confined_skipIf _ _
  | skipUnlessHeld x => exact c.confined_skipIf _ _
  | setByte x byte =>
    refine c.confined_put ?_ _
    exact beq_self_eq_true x
  | addByte x byte =>
    refine c.confined_put ?_ _
    exact beq_self_eq_true x
  | readDelay x =>
    refine c.confined_put ?_ _
    exact beq_self_eq_true x
  | drawRandom x mask => exact c.confined_drawRandom x mask
  | combine operation x y => exact c.confined_combine operation x y
  | drawSprite x y height => exact c.confined_drawSprite x y height
  | storeDigits x => exact c.confined_store (by simp [Instruction.storeSize]) _
  | storeRegisters x => exact c.confined_store (by simp [Instruction.storeSize]) _
  | loadRegisters x => exact c.confined_loadRegisters x
  | setIndex target => exact ⟨fun _ => rfl, fun _ _ => rfl, nofun⟩
  | advanceIndex x => exact ⟨fun _ => rfl, fun _ _ => rfl, nofun⟩
  | pointAtGlyph x => exact ⟨fun _ => rfl, fun _ _ => rfl, nofun⟩
  | _ => exact .of_eq rfl rfl rfl

section Execution

variable {c : Cpu} {i : Instruction}

/-- A store that fits puts its bytes in memory. -/
theorem memory_store {bytes : List UInt8}
    (ok : Memory.checkAccess c.index bytes.length = .ok ()) :
    (c.store bytes).state.memory = c.memory.patch ⟨c.index.toNat, bytes⟩ := by
  have hwrite : c.memory.write c.index bytes =
      .ok (c.memory.patch ⟨c.index.toNat, bytes⟩) := by
    rw [Memory.write, ok]
    rfl
  rw [store, hwrite]
  rfl

/-- What an instruction that is executed leaves in memory. -/
theorem memory_execute (ok : c.check i = .ok ()) :
    (c.execute i).state.memory = c.memory.patch ⟨c.index.toNat, c.stored i⟩ := by
  cases i with
  | storeDigits x => exact memory_store ok
  | storeRegisters x =>
    refine memory_store ?_
    rw [length_registersUpTo]
    exact ok
  | _ => exact ((c.confined_execute _).memory rfl).trans (Memory.patch_nil _ _).symm

/-- An instruction other than a call or a return leaves the call stack alone. -/
theorem stack_execute (h : i.movesStack = false) : (c.execute i).state.stack = c.stack := by
  have hf := c.flow_execute i
  generalize (c.execute i).state.pc = pc at hf
  generalize (c.execute i).state.stack = stack at hf ⊢
  cases hf with
  | calls => cases h
  | returns => cases h
  | _ => rfl

/-! ## The frame -/

/-- What an instruction can have changed between two processors, the one before and the one after
it. -/
structure Frame (c : Cpu) (i : Instruction) (after : Cpu) : Prop where
  /-- A byte of memory changes only if it is one of those that the instruction covers. -/
  bytes : ∀ k, k < 4096 → ¬(c.index.toNat ≤ k ∧ k < c.index.toNat + i.storeSize) →
    after.memory.byteAt k = c.memory.byteAt k
  /-- An instruction that covers no bytes leaves memory alone. -/
  memory : i.storeSize = 0 → after.memory = c.memory
  /-- A register changes only if the instruction writes it. -/
  registers : ∀ r, i.writes r = false → after.get r = c.get r
  /-- The index register changes only if the instruction moves it. -/
  index : i.movesIndex = false → after.index = c.index
  /-- The call stack changes only by calls and returns. -/
  stack : i.movesStack = false → after.stack = c.stack
  /-- The screen changes by drawing on it only. -/
  screen : i.draws = false → after.screen = c.screen
  /-- A frame waits after drawing, and otherwise if it did before. -/
  frameWaiting : after.frameWaiting = (i.draws || c.frameWaiting)
  /-- A program that runs goes on running unless it waits for a key. -/
  mode : i.awaits = false → after.mode = c.mode
  /-- The delay timer changes only if it is set. -/
  delay : i.setsDelay = false → after.delay = c.delay
  /-- The sound timer changes only if it is set. -/
  sound : i.setsSound = false → after.sound = c.sound
  /-- No instruction presses or releases a key. -/
  keypad : after.keypad = c.keypad
  /-- One random byte is drawn, or none, from the same stream. -/
  random : after.random =
    if i.drawsRandom then { c.random with drawn := c.random.drawn + 1 } else c.random

/-- What an instruction does to the timers, the keypad and the random source. -/
theorem Peripherals.frame_after (p : Peripherals) (c : Cpu) (i : Instruction) :
    (i.setsDelay = false → (p.after c i).delay = p.delay) ∧
      (i.setsSound = false → (p.after c i).sound = p.sound) ∧
      (p.after c i).keypad = p.keypad ∧
      (p.after c i).random = if i.drawsRandom then p.random.next else p.random := by
  cases i with
  | setDelay x => exact ⟨nofun, fun _ => rfl, rfl, rfl⟩
  | setSound x => exact ⟨fun _ => rfl, nofun, rfl, rfl⟩
  | _ => exact ⟨fun _ => rfl, fun _ => rfl, rfl, rfl⟩

/-- An instruction that is executed keeps to its frame. -/
theorem frame_execute (ok : c.check i = .ok ()) : c.Frame i (c.execute i).state := by
  have hconfined := c.confined_execute i
  have hspares := c.spares_execute i
  -- The five peripherals are components of what is there after the instruction.
  have hp := peripherals_execute ok
  have hwaiting := c.peripherals.frameWaiting_after c i
  obtain ⟨hdelay, hsound, hkeypad, hrandom⟩ := c.peripherals.frame_after c i
  rw [← hp] at hdelay hsound hkeypad hrandom hwaiting
  refine ⟨?_, hconfined.memory, hconfined.registers, hconfined.index, stack_execute,
    hspares.screen, hwaiting, hspares.mode, hdelay, hsound, hkeypad, hrandom⟩
  intro k hk hout
  rw [← length_stored c] at hout
  rw [memory_execute ok, Memory.byteAt_patch _ _ hk, Memory.Patch.at?_eq_none hout,
    Option.getD_none]

end Execution

end Cpu

end Chip8
