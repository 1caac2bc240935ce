import Chip8.Proofs.Cpu.Locality

/-!
# Peripherals

Five parts of the processor are shared with the outside world: the two timers, the keypad, the
source of random bytes, and the note that the screen was drawn on. This module says how they meet
an instruction. Four kinds of instructions read one of them: `readDelay` the delay timer, the two
skips on a key the keypad, and `drawRandom` the random source (`Peripherals.SameFor`). Five kinds
change one of them, in a way that depends on the registers only (`Peripherals.after`).

`execute_withPeripherals` says that there is no more to it: to replace the peripherals before an
instruction that does not notice the difference is to replace them after it. The law of what an
instruction does to its own peripherals, `peripherals_execute`, is the case in which nothing is
replaced.
-/

namespace Chip8

namespace Cpu

/-- The parts of the processor that are shared with the outside world. -/
structure Peripherals where
  /-- The timer that programs read. -/
  delay : UInt8
  /-- The timer that sounds a tone. -/
  sound : UInt8
  /-- The keys that are held. -/
  keypad : Keypad
  /-- Where random bytes come from. -/
  random : Random.Source
  /-- Whether the screen was drawn on since it was last shown. -/
  frameWaiting : Bool

/-- The peripherals of a processor. -/
def peripherals (c : Cpu) : Peripherals where
  delay := c.delay
  sound := c.sound
  keypad := c.keypad
  random := c.random
  frameWaiting := c.frameWaiting

/-- A processor with other peripherals. -/
def withPeripherals (c : Cpu) (p : Peripherals) : Cpu :=
  { c with
    delay := p.delay
    sound := p.sound
    keypad := p.keypad
    random := p.random
    frameWaiting := p.frameWaiting }

@[simp]
theorem peripherals_withPeripherals (c : Cpu) (p : Peripherals) :
    (c.withPeripherals p).peripherals = p := rfl

@[simp]
theorem withPeripherals_peripherals (c : Cpu) : c.withPeripherals c.peripherals = c := rfl

@[simp]
theorem withPeripherals_withPeripherals (c : Cpu) (p q : Peripherals) :
    (c.withPeripherals p).withPeripherals q = c.withPeripherals q := rfl

namespace Peripherals

/-- An instruction finds in two sets of peripherals what it reads. -/
def SameFor (p q : Peripherals) : Instruction → Prop
  | .readDelay _ => p.delay = q.delay
  | .skipIfHeld _ => p.keypad = q.keypad
  | .skipUnlessHeld _ => p.keypad = q.keypad
  | .drawRandom .. => p.random = q.random
  | _ => True

/-- The peripherals after an instruction that a processor executes. -/
def after (p : Peripherals) (c : Cpu) : Instruction → Peripherals
  | .clearScreen => { p with frameWaiting := true }
  | .drawSprite .. => { p with frameWaiting := true }
  | .drawRandom .. => { p with random := p.random.next }
  | .setDelay x => { p with delay := c.get x }
  | .setSound x => { p with sound := c.get x }
  | _ => p

/-- A frame waits after an instruction that draws, and otherwise if it did before. -/
theorem frameWaiting_after (p : Peripherals) (c : Cpu) (i : Instruction) :
    (p.after c i).frameWaiting = (i.draws || p.frameWaiting) := by
  cases i <;> rfl

end Peripherals

/-! ## The parts of an execution -/

section Parts

variable (c : Cpu) (p : Peripherals)

theorem skipIf_withPeripherals (condition : Bool) :
    (c.withPeripherals p).skipIf condition = (c.skipIf condition).withPeripherals p := by
  cases condition <;> rfl

theorem combine_withPeripherals (operation : Operation) (x y : Register) :
    (c.withPeripherals p).combine operation x y =
      (c.combine operation x y).withPeripherals p := by
  have hget : ∀ r, (c.withPeripherals p).get r = c.get r := fun _ => rfl
  unfold combine
  simp only [hget]
  cases operation.flag? (c.get x) (c.get y) <;> rfl

theorem store_withPeripherals (bytes : List UInt8) :
    ((c.withPeripherals p).store bytes).state = (c.store bytes).state.withPeripherals p := by
  have hmemory : (c.withPeripherals p).memory = c.memory := rfl
  have hindex : (c.withPeripherals p).index = c.index := rfl
  unfold store
  rw [hmemory, hindex]
  cases c.memory.write c.index bytes <;> rfl

theorem loadRegisters_withPeripherals (x : Register) :
    ((c.withPeripherals p).loadRegisters x).state =
      (c.loadRegisters x).state.withPeripherals p := by
  have hmemory : (c.withPeripherals p).memory = c.memory := rfl
  have hindex : (c.withPeripherals p).index = c.index := rfl
  unfold loadRegisters
  rw [hmemory, hindex]
  cases c.memory.read c.index (x.val + 1) <;> rfl

theorem call_withPeripherals (target : Address) :
    ((c.withPeripherals p).call target).state = (c.call target).state.withPeripherals p := by
  have hstack : (c.withPeripherals p).stack = c.stack := rfl
  have hpc : (c.withPeripherals p).pc = c.pc := rfl
  unfold call
  rw [hstack, hpc]
  cases c.stack.push c.pc <;> rfl

theorem returnToCaller_withPeripherals :
    (c.withPeripherals p).returnToCaller.state = c.returnToCaller.state.withPeripherals p := by
  have hstack : (c.withPeripherals p).stack = c.stack := rfl
  unfold returnToCaller
  rw [hstack]
  cases c.stack.pop <;> rfl

/-- A sprite that can be read is drawn whatever the peripherals are, and it makes a frame wait. -/
theorem drawSprite_withPeripherals {x y : Register} {height : Fin 16}
    (ok : c.check (.drawSprite x y height) = .ok ()) :
    ((c.withPeripherals p).drawSprite x y height).state =
      (c.drawSprite x y height).state.withPeripherals { p with frameWaiting := true } := by
  have hsprite : (c.withPeripherals p).sprite x y height = c.sprite x y height := rfl
  have hscreen : (c.withPeripherals p).screen = c.screen := rfl
  have hread : Memory.checkAccess c.index height.val = .ok () := ok
  unfold drawSprite
  rw [hsprite, hscreen]
  simp only [sprite, Memory.read, hread, Except.map]
  rfl

end Parts

/-! ## Whole instructions -/

/-- An instruction that finds what it reads in other peripherals does there what it does here, and
its effect on the peripherals is that of `Peripherals.after`. -/
theorem execute_withPeripherals {c : Cpu} {p : Peripherals} {i : Instruction}
    (ok : c.check i = .ok ()) (same : p.SameFor c.peripherals i) :
    ((c.withPeripherals p).execute i).state =
      (c.execute i).state.withPeripherals (p.after c i) := by
  cases i with
  | returnToCaller => exact c.returnToCaller_withPeripherals p
  | call target => exact c.call_withPeripherals p target
  | skipIfByte x byte => exact c.skipIf_withPeripherals p _
  | skipUnlessByte x byte => exact c.skipIf_withPeripherals p _
  | skipIfSame x y => exact c.skipIf_withPeripherals p _
  | skipUnlessSame x y => exact c.skipIf_withPeripherals p _
  | combine operation x y => exact c.combine_withPeripherals p operation x y
  | drawSprite x y height => exact c.drawSprite_withPeripherals p ok
  | storeDigits x => exact c.store_withPeripherals p (decimalDigits (c.get x))
  | storeRegisters x => exact c.store_withPeripherals p (c.registersUpTo x)
  | loadRegisters x => exact c.loadRegisters_withPeripherals p x
  -- The four that read a peripheral find it as it was.
  | skipIfHeld x =>
    have hkeypad : p.keypad = c.keypad := same
    simp only [execute, success, Peripherals.after]
    rw [← c.skipIf_withPeripherals p, ← hkeypad]
    rfl
  | skipUnlessHeld x =>
    have hkeypad : p.keypad = c.keypad := same
    simp only [execute, success, Peripherals.after]
    rw [← c.skipIf_withPeripherals p, ← hkeypad]
    rfl
  | readDelay x =>
    have hdelay : p.delay = c.delay := same
    simp only [execute, success, Peripherals.after, withPeripherals, put, hdelay]
  | drawRandom x mask =>
    have hrandom : p.random = c.random := same
    simp only [execute, success, Peripherals.after, withPeripherals, drawRandom, put, hrandom]
  | _ => rfl

/-- What an instruction that is executed does to the peripherals. -/
theorem peripherals_execute {c : Cpu} {i : Instruction} (ok : c.check i = .ok ()) :
    (c.execute i).state.peripherals = c.peripherals.after c i := by
  have same : c.peripherals.SameFor c.peripherals i := by cases i <;> trivial
  have h := execute_withPeripherals ok same
  rw [withPeripherals_peripherals] at h
  rw [h, peripherals_withPeripherals]

end Cpu

end Chip8
