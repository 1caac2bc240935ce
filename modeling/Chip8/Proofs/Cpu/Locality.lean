import Chip8.Proofs.Cpu.Check

/-!
# What an instruction leaves alone

Two kinds of instructions draw on the screen, and one stops the program until a key is pressed.
`spares_execute` says that no other instruction changes the screen or the mode.
-/

namespace Chip8

/-- Whether an instruction draws on the screen. -/
def Instruction.draws : Instruction → Bool
  | .clearScreen => true
  | .drawSprite .. => true
  | _ => false

/-- Whether an instruction waits for a key. -/
def Instruction.awaits : Instruction → Bool
  | .awaitKey _ => true
  | _ => false

namespace Cpu

/-- What an instruction of its kind leaves alone is the same in two processors, the one before and
the one after it. -/
structure Spares (c : Cpu) (i : Instruction) (after : Cpu) : Prop where
  /-- The screen changes by drawing on it only. -/
  screen : i.draws = false → after.screen = c.screen
  /-- A program that runs goes on running unless it waits for a key. -/
  mode : i.awaits = false → after.mode = c.mode

/-- An instruction of any kind may leave both alone. -/
theorem Spares.of_eq {c after : Cpu} {i : Instruction} (screen : after.screen = c.screen)
    (mode : after.mode = c.mode) : c.Spares i after :=
  ⟨fun _ => screen, fun _ => mode⟩

section Parts

variable (c : Cpu) (i : Instruction)

theorem spares_skipIf (condition : Bool) : c.Spares i (c.skipIf condition) := by
  cases condition <;> exact .of_eq rfl rfl

theorem spares_combine (operation : Operation) (x y : Register) :
    c.Spares i (c.combine operation x y) := by
  unfold combine
  dsimp only
  split <;> exact .of_eq rfl rfl

theorem spares_store (bytes : List UInt8) : c.Spares i (c.store bytes).state := by
  unfold store
  split <;> exact .of_eq rfl rfl

theorem spares_loadRegisters (x : Register) : c.Spares i (c.loadRegisters x).state := by
  unfold loadRegisters
  split
  · exact .of_eq rfl rfl
  · -- The registers would be compared one by one if `rfl` had to find this.
    exact .of_eq (by simp only [success]) (by simp only [success])

theorem spares_call (target : Address) : c.Spares i (c.call target).state := by
  unfold call
  split <;> exact .of_eq rfl rfl

theorem spares_returnToCaller : c.Spares i c.returnToCaller.state := by
  unfold returnToCaller
  split <;> exact .of_eq rfl rfl

theorem mode_drawSprite (x y : Register) (height : Fin 16) :
    (c.drawSprite x y height).state.mode = c.mode := by
  unfold drawSprite
  split <;> rfl

end Parts

/-- An instruction changes the screen only if it draws on it, and the mode only if it waits for a
key. -/
theorem spares_execute (c : Cpu) (i : Instruction) : c.Spares i (c.execute i).state := by
  cases i with
  | clearScreen => exact ⟨nofun, fun _ => rfl⟩
  | drawSprite x y height => exact ⟨nofun, fun _ => c.mode_drawSprite x y height⟩
  | awaitKey x => exact ⟨fun _ => rfl, nofun⟩
  | returnToCaller => exact c.spares_returnToCaller _
  | call target => exact c.spares_call _ target
  | skipIfByte x byte => exact c.spares_skipIf _ _
  | skipUnlessByte x byte => exact c.spares_skipIf _ _
  | skipIfSame x y => exact c.spares_skipIf _ _
  | skipUnlessSame x y => exact c.spares_skipIf _ _
  | skipIfHeld x => exact c.spares_skipIf _ _
  | skipUnlessHeld x => exact c.spares_skipIf _ _
  | combine operation x y => exact c.spares_combine _ operation x y
  | storeDigits x => exact c.spares_store _ _
  | storeRegisters x => exact c.spares_store _ _
  | loadRegisters x => exact c.spares_loadRegisters _ x
  | _ => exact .of_eq rfl rfl

end Cpu

end Chip8
