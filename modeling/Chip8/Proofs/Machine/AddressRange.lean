import Chip8.Proofs.Cpu.Flow
import Chip8.Proofs.Machine.Response
import Mathlib.Control.Monad.Basic

/-!
# The range of the program counter

Addresses are 16-bit words and additions to them wrap, but no program gets near the end of the
range. `addresses_in_range` shows that the program counter never exceeds `0x10FE`, which is where a
jump with offset can lead at most, and that a return address lies in memory or just behind it. The
two bounds need each other: a return address is where a call came from, a call is only made where an
instruction could be fetched, and a return goes to such an address again. `InRange` is the invariant
that holds them together.
-/

namespace Chip8

namespace Cpu

/-- The program counter and the return addresses keep within their bounds. -/
structure InRange (c : Cpu) : Prop where
  /-- The program counter is at most where a jump with offset can lead. -/
  pc : c.pc.toNat ≤ 0x10FE
  /-- The call stack is not overfull. -/
  depth : c.stack.depth ≤ CallStack.capacity
  /-- A return address is behind an instruction that lies in memory. -/
  returns : ∀ address ∈ c.stack.frames, 0x002 ≤ address.toNat ∧ address.toNat ≤ 0x1000

/-- The invariant is about the program counter and the call stack only. -/
theorem InRange.congr {c d : Cpu} (h : c.InRange) (hp : d.pc = c.pc) (hs : d.stack = c.stack) :
    d.InRange where
  pc := by rw [hp]; exact h.pc
  depth := by rw [hs]; exact h.depth
  returns := by rw [hs]; exact h.returns

/-- A new processor is within bounds. -/
theorem inRange_initial (random : Random.Source) : (initial random).InRange where
  pc := by show (0x200 : Nat) ≤ 0x10FE; omega
  depth := Nat.zero_le _
  returns := fun _ h => absurd h List.not_mem_nil

/-- A word can be fetched only where both its bytes lie in memory. -/
theorem pc_le_of_readWord {m : Memory} {address w : UInt16} (h : m.readWord address = .ok w) :
    address.toNat ≤ 0xFFE := by
  unfold Memory.readWord Memory.checkAccess at h
  split at h
  · rename_i hroom
    have hsize : Memory.size = 4096 := rfl
    omega
  · cases h

/-- What comes next can be fetched. -/
theorem pc_le_of_next {c : Cpu} {word : UInt16} {i : Instruction} (h : c.next = .ok (word, i)) :
    c.pc.toNat ≤ 0xFFE := by
  unfold next fetch at h
  cases hr : c.memory.readWord c.pc with
  | error e => rw [hr] at h; cases h
  | ok w => exact pc_le_of_readWord hr

/-- Moving past an instruction in memory does not wrap. -/
theorem toNat_advance {c : Cpu} (h : c.pc.toNat ≤ 0xFFE) :
    c.advance.pc.toNat = c.pc.toNat + 2 := by
  have hsize : instructionSize.toNat = 2 := rfl
  simp only [advance, UInt16.toNat_add, hsize]
  omega

/-- Skipping does not wrap either, behind an instruction in memory. -/
theorem toNat_skipIf_advance {c : Cpu} (h : c.pc.toNat ≤ 0xFFE) (condition : Bool) :
    (c.advance.skipIf condition).pc.toNat = c.pc.toNat + 2 + if condition then 2 else 0 := by
  have ha := toNat_advance h
  have hsize : instructionSize.toNat = 2 := rfl
  cases condition with
  | false => exact ha
  | true =>
    show (c.advance.pc + instructionSize).toNat = c.pc.toNat + 2 + 2
    rw [UInt16.toNat_add, ha, hsize]
    omega

/-- A jump with offset does not wrap. -/
theorem toNat_jumpWithOffset_le (target : Address) (offset : UInt8) :
    (target.toWord + offset.toUInt16).toNat ≤ 0x10FE := by
  have ht := toNat_toWord_le target
  have ho := offset.toNat_lt
  rw [UInt16.toNat_add, UInt8.toNat_toUInt16]
  omega

/-- An instruction that lies in memory leaves the bounds intact. -/
theorem InRange.execute {c : Cpu} (h : c.InRange) (hpc : c.pc.toNat ≤ 0xFFE) (i : Instruction) :
    (c.advance.execute i).state.InRange := by
  have ha := toNat_advance hpc
  have hf := c.advance.flow_execute i
  -- What is left behind is named before the cases, which are about its two components only.
  generalize hd : (c.advance.execute i).state = d at hf ⊢
  generalize hp : d.pc = pc at hf
  generalize hs : d.stack = stack at hf
  cases hf with
  | passes =>
    -- Past one instruction or two, and so below `0x1003`.
    have hskip := toNat_skipIf_advance hpc (c.advance.skips i)
    refine ⟨?_, hs ▸ h.depth, hs ▸ h.returns⟩
    rw [hp, hskip]
    split <;> omega
  | stays => exact ⟨by rw [hp, ha]; omega, hs ▸ h.depth, hs ▸ h.returns⟩
  | jumps target =>
    have ht := toNat_toWord_le target
    exact ⟨by rw [hp]; omega, hs ▸ h.depth, hs ▸ h.returns⟩
  | jumpsWithOffset target =>
    exact ⟨hp ▸ toNat_jumpWithOffset_le target _, hs ▸ h.depth, hs ▸ h.returns⟩
  | calls target room =>
    have ht := toNat_toWord_le target
    refine ⟨by rw [hp]; omega, ?_, ?_⟩
    · rw [hs]
      exact room
    · -- The new return address is where the call was fetched and two more.
      rw [hs]
      intro address hmem
      rcases List.mem_cons.mp hmem with rfl | hmem
      · omega
      · exact h.returns address hmem
  | returns top =>
    -- The program goes on where a call was made, and the other calls are still in progress.
    have top' : c.stack.frames = _ := top
    have hdepth := h.depth
    have hreturns := h.returns
    unfold CallStack.depth at hdepth
    rw [top'] at hdepth hreturns
    have hbound := hreturns _ (List.mem_cons_self ..)
    refine ⟨by rw [hp]; omega, ?_, ?_⟩
    · rw [hs]
      exact Nat.le_of_succ_le hdepth
    · rw [hs]
      exact fun address hmem => hreturns address (List.mem_cons_of_mem _ hmem)

/-- An instruction that lies in memory and leads back redirects the program. -/
theorem redirects_of_pc_lt {c : Cpu} (hpc : c.pc.toNat ≤ 0xFFE) {i : Instruction}
    (hlt : (c.advance.execute i).state.pc.toNat < c.pc.toNat) : i.redirects = true := by
  cases hr : i.redirects with
  | true => rfl
  | false =>
    have hskip := toNat_skipIf_advance hpc (c.advance.skips i)
    rw [(c.advance.flow_of_straight hr).1] at hlt
    omega

end Cpu

namespace Machine

/-- Servicing the timers leaves the bounds intact. -/
theorem inRange_serviceTimers {m : Machine} (h : m.cpu.InRange) (now : Nat) :
    (m.serviceTimers now).cpu.InRange := by
  rw [cpu_serviceTimers]
  exact h.congr rfl rfl

/-- Every response leaves the bounds intact. -/
theorem inRange_of_responds {m : Machine} {event : Event} {outcome : Outcome Machine Reply}
    (hr : m.Responds event outcome) (h : m.cpu.InRange) : outcome.state.cpu.InRange := by
  cases hr with
  | loads =>
    -- The program counter is set back to the start, and the call stack is left as it is.
    exact ⟨(Cpu.inRange_initial m.cpu.random).pc, h.depth, h.returns⟩
  | steps step =>
    cases step with
    | stopped => exact h
    | unloaded => exact h
    | @waits now => exact inRange_serviceTimers h _
    | faults => exact inRange_serviceTimers h _
    | executes _ _ _ next =>
      -- The word was fetched, so that the instruction lies in memory.
      rw [← next_serviceTimers] at next
      exact (inRange_serviceTimers h _).execute (Cpu.pc_le_of_next next) _
  | _ => exact h.congr rfl rfl

/-- A step that leads back executes an instruction that redirects the program, and reports it. -/
theorem redirects_of_step_pc_lt {m : Machine} {now : Nat}
    (hlt : (m.step now).state.cpu.pc.toNat < m.cpu.pc.toNat) :
    ∃ trace, .executing trace ∈ (m.step now).log ∧ trace.instruction.redirects = true := by
  have hs := m.stepsTo_step now
  have hpc : (m.serviceTimers now).cpu.pc = m.cpu.pc := by rw [cpu_serviceTimers]
  generalize m.step now = stepped at hlt hs ⊢
  cases hs with
  | stopped => exact absurd hlt (Nat.lt_irrefl _)
  | unloaded => exact absurd hlt (Nat.lt_irrefl _)
  | waits => exact absurd (hpc ▸ hlt) (Nat.lt_irrefl _)
  | faults => exact absurd (hpc ▸ hlt) (Nat.lt_irrefl _)
  | executes _ _ _ next =>
    rw [← next_serviceTimers] at next
    rw [← hpc] at hlt
    exact ⟨_, List.mem_cons_self .., Cpu.redirects_of_pc_lt (Cpu.pc_le_of_next next) hlt⟩

/-- Whatever was done to a new machine, its program counter is at most `0x10FE`, and its call stack
holds at most twenty-four addresses, none of them outside `0x002` to `0x1000`. Where a word can be
fetched the program counter is at most `0xFFE`, so that neither moving past the instruction nor
skipping the next one wraps. A step after which the program counter is lower than before has
executed a jump, a call, or a return: no program comes back to low memory by running on. -/
theorem addresses_in_range (config : Config) (entropy : Random.Key) (events : List Event) :
    let m := (new config entropy).after events
    m.cpu.pc.toNat ≤ 0x10FE ∧
      m.cpu.stack.addresses.length ≤ 24 ∧
      (∀ address ∈ m.cpu.stack.addresses, 0x002 ≤ address.toNat ∧ address.toNat ≤ 0x1000) ∧
      (∀ w, m.cpu.memory.readWord m.cpu.pc = .ok w →
        m.cpu.pc.toNat ≤ 0xFFE ∧
          m.cpu.advance.pc.toNat = m.cpu.pc.toNat + 2 ∧
          ∀ condition, (m.cpu.advance.skipIf condition).pc.toNat =
            m.cpu.pc.toNat + 2 + if condition then 2 else 0) ∧
      ∀ now, (m.step now).state.cpu.pc.toNat < m.cpu.pc.toNat →
        ∃ trace, .executing trace ∈ (m.step now).log ∧ trace.instruction.redirects = true := by
  intro m
  have hm : m.cpu.InRange := after_induction (P := fun n => n.cpu.InRange)
    (fun _ _ _ => inRange_of_responds) _ events (Cpu.inRange_initial _)
  refine ⟨hm.pc, ?_, ?_, ?_, fun now => redirects_of_step_pc_lt⟩
  · rw [CallStack.addresses, List.length_reverse]
    exact hm.depth
  · intro address hmem
    exact hm.returns address (List.mem_reverse.mp hmem)
  · intro w hw
    have hpc := Cpu.pc_le_of_readWord hw
    exact ⟨hpc, Cpu.toNat_advance hpc, Cpu.toNat_skipIf_advance hpc⟩

/-- The bounds are reached: a jump with offset leads to `0x10FE`, from where no word is fetched, and
before it is executed the machine stands at an instruction in memory. -/
theorem jump_past_memory :
    let m := (new {} (Vector.replicate 8 0)).after [.load [0x60, 0xFF, 0xBF, 0xFF], .step 0]
    (m.after [.step 0]).cpu.pc = 0x10FE ∧
      m.cpu.memory.readWord m.cpu.pc = .ok 0xBFFF ∧
      m.cpu.pc.toNat ≤ 0xFFE ∧
      m.cpu.advance.pc.toNat = m.cpu.pc.toNat + 2 ∧
      ∀ condition, (m.cpu.advance.skipIf condition).pc.toNat =
        m.cpu.pc.toNat + 2 + if condition then 2 else 0 := by
  have hrun : ∀ m, m = (new {} (Vector.replicate 8 0)).after
      [.load [0x60, 0xFF, 0xBF, 0xFF], .step 0] →
      (m.after [.step 0]).cpu.pc = 0x10FE ∧ m.cpu.memory.readWord m.cpu.pc = .ok 0xBFFF := by
    intro m hm
    rw [hm]
    decide +kernel
  obtain ⟨hpc, hw⟩ := hrun _ rfl
  obtain ⟨-, -, -, hfetch, -⟩ := addresses_in_range {} (Vector.replicate 8 0)
    [.load [0x60, 0xFF, 0xBF, 0xFF], .step 0]
  exact ⟨hpc, hw, hfetch 0xBFFF hw⟩

end Machine

end Chip8
