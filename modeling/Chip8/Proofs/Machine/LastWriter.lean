import Chip8.Proofs.Machine.Execution
import Mathlib.Control.Monad.Basic

/-!
# Who wrote a byte of memory

The frame law of the instruction set, and what it comes to in a run. `frame_law_and_last_writer`
says that no instruction that is executed changes more than its kind allows, and that after any
history each byte of memory is what the last event that covers it put there: the program that was
loaded, the digits or the registers that an instruction stored, or else the font and the zeros that
memory starts with. It does not matter whether the program overwrites itself.

An event puts a patch in memory or leaves it alone (`memory_respond`). So memory after a history is
memory before it under the patches of its events (`memory_after`), and `byteAt_foldl_patch` says
what is at a position then.
-/

namespace Chip8.Machine

/-- What an event puts in memory: a program that is loaded, or what an instruction stores. -/
def patch? (m : Machine) (event : Event) : Option Memory.Patch :=
  match event with
  | .load program =>
    match (m.load program).answer with
    | .ok () => some ⟨Memory.programStart.toNat, program⟩
    | .error _ => none
  | event =>
    match m.executed event with
    | some (.storeDigits x) => some ⟨m.cpu.index.toNat, Cpu.decimalDigits (m.cpu.get x)⟩
    | some (.storeRegisters x) => some ⟨m.cpu.index.toNat, m.cpu.registersUpTo x⟩
    | _ => none

/-- Memory after an event that is a step. -/
theorem memory_step (m : Machine) (now : Nat) :
    (m.step now).state.cpu.memory =
      (m.patch? (.step now)).toList.foldl Memory.patch m.cpu.memory := by
  obtain ⟨delay, sound, ⟨i, hi, ok, hs⟩ | ⟨hi, hs⟩⟩ := m.cpu_step now
  · -- Where the instruction is executed the registers and the index register are as before.
    have hmemory := Cpu.memory_execute ok
    simp only [hs, hmemory, patch?, hi]
    cases i <;> rfl
  · simp only [hs, patch?, hi]
    rfl

/-- Memory after an event is memory before it with what the event puts there. -/
theorem memory_respond (m : Machine) (event : Event) :
    (m.respond event).state.cpu.memory =
      (m.patch? event).toList.foldl Memory.patch m.cpu.memory := by
  have hr := m.responds_respond event
  cases event with
  | step now => exact m.memory_step now
  | load program =>
    show (m.load program).state.cpu.memory = _
    rw [patch?]
    cases hl : m.loaded with
    | true => rw [load_of_loaded program hl]; rfl
    | false =>
      by_cases hsize : program.length ≤ Memory.programLimit
      · rw [load_of_le hl hsize]; rfl
      · rw [load_of_large hl (Nat.lt_of_not_le hsize)]; rfl
  | _ =>
    generalize m.respond _ = outcome at hr ⊢
    cases hr <;> rfl

/-- Memory after a history is memory before it with all that its events put there. -/
theorem memory_after (m : Machine) (events : List Event) :
    (m.after events).cpu.memory =
      (m.collect patch? events).foldl Memory.patch m.cpu.memory := by
  induction events generalizing m with
  | nil => rfl
  | cons event rest ih =>
    show ((m.respond event).state.after rest).cpu.memory = _
    rw [ih, memory_respond, collect, List.foldl_append]

/-- An instruction that is executed keeps to its frame. And whatever was done to a new machine, each
byte of its memory is what was put there last: the program that was loaded, or the digits or
registers stored by an instruction that covers the byte. If nothing was put there it is a byte of
the font, or zero behind the font. -/
theorem frame_law_and_last_writer :
    (∀ (c : Cpu) (i : Instruction), (c.execute i).answer = .ok () →
      c.Frame i (c.execute i).state) ∧
    ∀ (config : Config) (entropy : Random.Key) (events : List Event) (k : Nat), k < 4096 →
      let start := new config entropy
      (start.after events).cpu.memory.byteAt k =
        ((start.collect patch? events).filterMap (Memory.Patch.at? k)).getLast?.getD
          (Font.glyphs[k]?.getD 0) := by
  refine ⟨fun c i ok => ?_, fun config entropy events k hk => ?_⟩
  · rw [Cpu.answer_execute] at ok
    exact Cpu.frame_execute ok
  · intro start
    have hinitial : start.cpu.memory.byteAt k = Font.glyphs[k]?.getD 0 :=
      Memory.byteAt_initial hk
    rw [memory_after, Memory.byteAt_foldl_patch _ _ hk, hinitial]

/-- A program that stores the digits of 254 and then two registers over the first two of them. The
third digit is still there, and in front of the program is the font. -/
theorem digit_behind_registers :
    let events : List Event :=
      [.load [0x60, 0xFE, 0xA3, 0x00, 0xF0, 0x33, 0xF1, 0x55], .step 0, .step 1, .step 2]
    let start := new {} (Vector.replicate 8 0)
    let m := start.after events
    ((m.cpu.execute (.storeRegisters 1)).answer = .ok () ∧
      m.cpu.Frame (.storeRegisters 1) (m.cpu.execute (.storeRegisters 1)).state) ∧
    (0x300 < 4096 ∧ (start.after (events ++ [.step 3])).cpu.memory.byteAt 0x300 = 0xFE) ∧
    (0x302 < 4096 ∧ (start.after (events ++ [.step 3])).cpu.memory.byteAt 0x302 = 4) ∧
    (0x04F < 4096 ∧ (start.after (events ++ [.step 3])).cpu.memory.byteAt 0x04F = 0x80) := by
  intro events start m
  obtain ⟨hframe, hbytes⟩ := frame_law_and_last_writer
  obtain ⟨ok, hpatches⟩ : (m.cpu.execute (.storeRegisters 1)).answer = .ok () ∧
      start.collect patch? (events ++ [.step 3]) =
        [⟨0x200, [0x60, 0xFE, 0xA3, 0x00, 0xF0, 0x33, 0xF1, 0x55]⟩, ⟨0x300, [2, 5, 4]⟩,
          ⟨0x300, [0xFE, 0x00]⟩] := by
    decide +kernel
  have byte (k : Nat) (hk : k < 4096) := hbytes {} (Vector.replicate 8 0) (events ++ [.step 3]) k hk
  subst m start
  refine ⟨⟨ok, hframe _ _ ok⟩, ⟨by decide, ?_⟩, ⟨by decide, ?_⟩, by decide, ?_⟩
  · rw [byte 0x300 (by decide), hpatches]
    rfl
  · rw [byte 0x302 (by decide), hpatches]
    rfl
  · rw [byte 0x04F (by decide), hpatches]
    rfl

end Chip8.Machine
