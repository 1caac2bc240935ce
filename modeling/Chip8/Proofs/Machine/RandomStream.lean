import Chip8.Proofs.Machine.Execution

/-!
# Random bytes and the stream of the seed

The seed of a machine fixes an endless stream of bytes. `random_bytes_follow_stream` says that a
program is given this stream, byte by byte and in order: the byte for a `drawRandom` is the one at
the position that counts how many were executed before it. Nothing else takes a byte, and a mask
that leaves nothing of a byte does not save it.

One event draws at most one byte (`random_respond`), and the position after a history is the number
of draws in it (`random_after`).
-/

namespace Chip8.Machine

/-- An event takes a byte from the stream if it executes a `drawRandom`, and none otherwise. -/
theorem random_respond (m : Machine) (event : Event) :
    (m.respond event).state.cpu.random =
      if (m.executed event).any Instruction.drawsRandom then m.cpu.random.next
      else m.cpu.random := by
  cases hi : m.executed event with
  | none => exact (untouched_respond hi).2.2
  | some i =>
    obtain ⟨delay, sound, hframe⟩ := frame_of_executed hi
    exact hframe.random

/-- The position in the stream moves on by the number of draws in a history. -/
theorem random_after (m : Machine) (events : List Event) :
    (m.after events).cpu.random =
      { m.cpu.random with
        drawn := m.cpu.random.drawn + (m.executions events).countP Instruction.drawsRandom } := by
  induction events generalizing m with
  | nil => rfl
  | cons event rest ih =>
    have hlist : m.executions (event :: rest) =
        (m.executed event).toList ++ (m.respond event).state.executions rest := rfl
    show ((m.respond event).state.after rest).cpu.random = _
    rw [ih, random_respond, hlist, List.countP_append]
    cases m.executed event with
    | none => simp
    | some i => cases h : i.drawsRandom <;> simp [h, Random.Source.next, Nat.add_assoc]

/-- A `drawRandom` stores the current byte of the stream under its mask. -/
theorem get_of_drawRandom {m : Machine} {now : Nat} {x : Register} {mask : UInt8}
    (h : m.executed (.step now) = some (.drawRandom x mask)) :
    (m.step now).state.cpu.get x = m.cpu.random.current &&& mask := by
  obtain ⟨delay, sound, -, hs⟩ := cpu_of_executed h
  rw [hs]
  exact (Cpu.get_put ..).trans (if_pos rfl)

/-- A machine with a seed stands at the position of the seed's stream that counts the random bytes
drawn in its history. The next `drawRandom` stores the byte at this position under its mask, and
moves on by one whatever the mask is. An event in which no `drawRandom` is executed leaves the
position alone. -/
theorem random_bytes_follow_stream (config : Config) (seed : UInt64) (entropy : Random.Key)
    (events : List Event) :
    let start := new (config.withSeed seed) entropy
    let m := start.after events
    let k := (start.executions events).countP Instruction.drawsRandom
    m.cpu.random = { key := .ofSeed seed, drawn := k } ∧
    (∀ now x mask, m.executed (.step now) = some (.drawRandom x mask) →
      (m.step now).state.cpu.get x = Random.Source.byteAt (.ofSeed seed) k &&& mask ∧
        (m.step now).state.cpu.random = { key := .ofSeed seed, drawn := k + 1 }) ∧
    ∀ event, (∀ x mask, m.executed event ≠ some (.drawRandom x mask)) →
      (m.respond event).state.cpu.random = m.cpu.random := by
  intro start m k
  have hrandom : m.cpu.random = { key := .ofSeed seed, drawn := k } := by
    have h := start.random_after events
    have hdrawn : start.cpu.random.drawn = 0 := rfl
    rw [hdrawn, Nat.zero_add] at h
    exact h
  refine ⟨hrandom, fun now x mask hi => ?_, fun event hi => ?_⟩
  · have hstep := m.random_respond (.step now)
    rw [hi] at hstep
    refine ⟨?_, ?_⟩
    · rw [get_of_drawRandom hi, hrandom]
      rfl
    · exact hstep.trans (by rw [hrandom]; rfl)
  · rw [random_respond]
    refine if_neg ?_
    cases h : m.executed event with
    | none => exact Bool.false_ne_true
    | some i =>
      cases i with
      | drawRandom x mask => exact absurd h (hi x mask)
      | _ => exact Bool.false_ne_true

/-- A program that draws three bytes, the first one under a mask that leaves nothing of it. A step
before it is loaded, a refused program and a key are in between. The third byte is the one at
position two, and the jump behind it draws none. -/
theorem third_random_byte :
    let events : List Event :=
      [.step 0, .load [0xC1, 0x00, 0xC2, 0xFF, 0xC3, 0x0F, 0x12, 0x06], .step 1, .press 3,
        .load [0x00], .step 2]
    let start := new (({} : Config).withSeed 7) (Vector.replicate 8 0)
    let m := start.after events
    m.executed (.step 3) = some (.drawRandom 3 0x0F) ∧
      (m.step 3).state.cpu.get 3 = Random.Source.byteAt (.ofSeed 7) 2 &&& 0x0F ∧
      (m.after [.step 3]).executed (.step 4) = some (.jump 0x206) ∧
      ((m.after [.step 3]).respond (.step 4)).state.cpu.random =
        (m.after [.step 3]).cpu.random := by
  intro events start m
  obtain ⟨-, hdraw, -⟩ :=
    random_bytes_follow_stream {} 7 (Vector.replicate 8 0) events
  obtain ⟨-, -, hkeep⟩ :=
    random_bytes_follow_stream {} 7 (Vector.replicate 8 0) (events ++ [.step 3])
  obtain ⟨hthird, hjump, hcount⟩ : m.executed (.step 3) = some (.drawRandom 3 0x0F) ∧
      (m.after [.step 3]).executed (.step 4) = some (.jump 0x206) ∧
      (start.executions events).countP Instruction.drawsRandom = 2 := by
    decide +kernel
  rw [hcount] at hdraw
  rw [after_append] at hkeep
  subst m start
  refine ⟨hthird, (hdraw 3 3 0x0F hthird).1, hjump, hkeep (.step 4) fun x mask h => ?_⟩
  cases hjump.symm.trans h

end Chip8.Machine
