import Chip8.Proofs.Instruction.Forms
import Chip8.Proofs.Machine.AddressRange
import Chip8.Proofs.Machine.Execution

/-!
# Where a program goes on

The address of the instruction that comes next, in whole numbers. `LeadsTo` is the table: four kinds
of instructions go on elsewhere, and every other one four bytes on if it skips, and two if not.
`leadsTo_execute` shows that an instruction which lies in memory keeps to it, with nothing lost to
the width of an address.

A skip and its opposite (`Instruction.opposite?`) look at the same operands with conditions that
exclude each other, and neither changes anything but the program counter (`execute_opposite`).
`successor_addresses` says both of all machines, and that a step which executes nothing stays where
it is.
-/

namespace Chip8

namespace Instruction

/-- The skip with the opposite condition on the same operands. -/
def opposite? : Instruction → Option Instruction
  | skipIfByte x byte => some (skipUnlessByte x byte)
  | skipUnlessByte x byte => some (skipIfByte x byte)
  | skipIfSame x y => some (skipUnlessSame x y)
  | skipUnlessSame x y => some (skipIfSame x y)
  | skipIfHeld x => some (skipUnlessHeld x)
  | skipUnlessHeld x => some (skipIfHeld x)
  | _ => none

/-- A word that decodes to an instruction is the number that the form of the instruction writes. -/
theorem toNat_of_decode {w : UInt16} {i : Instruction} (h : decode w = .ok i) :
    w.toNat = i.form := by
  rw [← decode_eq_ok_iff.mp h, toNat_encode]

end Instruction

namespace Cpu

/-- The address at which a program goes on behind an instruction that is executed, as seen from
where the instruction lies. -/
inductive LeadsTo (c : Cpu) : Instruction → Nat → Prop where
  /-- A jump leads to its target. -/
  | jumps (target : Address) : LeadsTo c (.jump target) target.val
  /-- A call leads to its target. -/
  | calls (target : Address) : LeadsTo c (.call target) target.val
  /-- A jump with offset leads as far behind its target as the first register says. -/
  | jumpsWithOffset (target : Address) :
    LeadsTo c (.jumpWithOffset target) (target.val + (c.get .zero).toNat)
  /-- A return leads to the address on top of the call stack. -/
  | returns {address : UInt16} {rest : CallStack} (top : c.stack.pop = .ok (address, rest)) :
    LeadsTo c .returnToCaller address.toNat
  /-- A skip whose condition holds leads past the instruction behind it. -/
  | skips {i : Instruction} (straight : i.redirects = false) (holds : c.skips i = true) :
    LeadsTo c i (c.pc.toNat + 4)
  /-- Everything else leads to the instruction behind it. -/
  | passes {i : Instruction} (straight : i.redirects = false) (fails : c.skips i = false) :
    LeadsTo c i (c.pc.toNat + 2)

/-- The timers do not decide where a program goes on. -/
theorem LeadsTo.of_timers {c : Cpu} {delay sound : UInt8} {i : Instruction} {address : Nat}
    (h : { c with delay := delay, sound := sound }.LeadsTo i address) : c.LeadsTo i address := by
  cases h with
  | jumps target => exact .jumps target
  | calls target => exact .calls target
  | jumpsWithOffset target => exact .jumpsWithOffset target
  | returns top => exact .returns top
  | skips straight holds =>
    refine .skips straight ?_
    rw [← holds]
    cases i <;> rfl
  | passes straight fails =>
    refine .passes straight ?_
    rw [← fails]
    cases i <;> rfl

/-- A target is an address as it stands. -/
theorem toNat_toWord (target : Address) : target.toWord.toNat = target.val := by
  have h := target.isLt
  rw [Address.toWord, UInt16.toNat_ofNat']
  omega

/-- The condition of a skip does not depend on where the program counter points. -/
theorem skips_advance (c : Cpu) (i : Instruction) : c.advance.skips i = c.skips i := by
  cases i <;> rfl

/-- An instruction that lies in memory and is executed leads where the table says. -/
theorem leadsTo_execute {c : Cpu} {i : Instruction} (hpc : c.pc.toNat ≤ 0xFFE)
    (ok : c.check i = .ok ()) : c.LeadsTo i (c.advance.execute i).state.pc.toNat := by
  have hf := c.advance.flow_execute i
  generalize (c.advance.execute i).state.pc = pc at hf ⊢
  generalize (c.advance.execute i).state.stack = stack at hf
  cases hf with
  | passes straight =>
    rw [skips_advance, toNat_skipIf_advance hpc]
    cases hskips : c.skips i with
    | true => exact .skips straight hskips
    | false => exact .passes straight hskips
  | stays refused =>
    rw [check_advance, ok] at refused
    cases refused
  | jumps target => rw [toNat_toWord]; exact .jumps target
  | calls target => rw [toNat_toWord]; exact .calls target
  | jumpsWithOffset target =>
    have htarget := target.isLt
    have hoffset := (c.get .zero).toNat_lt
    have hsum : (target.toWord + (c.get .zero).toUInt16).toNat =
        target.val + (c.get .zero).toNat := by
      rw [UInt16.toNat_add, toNat_toWord, UInt8.toNat_toUInt16]
      exact Nat.mod_eq_of_lt (by omega)
    have hsame : c.advance.get .zero = c.get .zero := rfl
    rw [hsame, hsum]
    exact .jumpsWithOffset target
  | returns top =>
    rename_i outer
    have htop : c.stack.frames = pc :: outer := top
    have hpop : c.stack.pop = .ok (pc, ⟨outer⟩) := by rw [CallStack.pop, htop]
    exact .returns hpop

/-! ## Skips -/

/-- A skip moves past one more instruction if its condition holds, and that is all. -/
theorem execute_of_opposite (c : Cpu) {i j : Instruction} (h : i.opposite? = some j) :
    c.execute i = success (c.skipIf (c.skips i)) := by
  cases i with
  | skipIfByte x byte => rfl
  | skipUnlessByte x byte => rfl
  | skipIfSame x y => rfl
  | skipUnlessSame x y => rfl
  | skipIfHeld x => rfl
  | skipUnlessHeld x => rfl
  | _ => cases h

/-- Of a skip and its opposite one has a condition that holds. -/
theorem skips_opposite (c : Cpu) {i j : Instruction} (h : i.opposite? = some j) :
    c.skips j = !c.skips i := by
  cases i with
  | skipIfByte x byte => cases h; rfl
  | skipUnlessByte x byte => cases h; exact (Bool.not_not _).symm
  | skipIfSame x y => cases h; rfl
  | skipUnlessSame x y => cases h; exact (Bool.not_not _).symm
  | skipIfHeld x => cases h; rfl
  | skipUnlessHeld x => cases h; exact (Bool.not_not _).symm
  | _ => cases h

/-- Who skips from behind an instruction ends two instructions on. -/
theorem skipIf_advance (c : Cpu) (condition : Bool) :
    c.advance.skipIf condition = { c with pc := c.pc + if condition then 4 else 2 } := by
  cases condition with
  | false => rfl
  | true =>
    have hfour : instructionSize + instructionSize = 4 := rfl
    show { c with pc := c.pc + instructionSize + instructionSize } = { c with pc := c.pc + 4 }
    rw [UInt16.add_assoc, hfour]

/-- A skip and its opposite in the same place: the one whose condition holds ends two instructions
on and the other one instruction, and nothing else changes. -/
theorem execute_opposite (c : Cpu) {i j : Instruction} (h : i.opposite? = some j) :
    c.advance.execute i = success { c with pc := c.pc + if c.skips i then 4 else 2 } ∧
      c.advance.execute j = success { c with pc := c.pc + if c.skips i then 2 else 4 } := by
  have hback : j.opposite? = some i := by
    cases i <;> cases h <;> rfl
  rw [execute_of_opposite _ h, execute_of_opposite _ hback, skips_advance, skips_advance,
    skipIf_advance, skipIf_advance, skips_opposite c h]
  cases c.skips i <;> exact ⟨rfl, rfl⟩

/-- What is fetched is the word at the program counter and the instruction that it decodes to. -/
theorem fetch_eq_ok {c : Cpu} {w : UInt16} {i : Instruction} :
    c.fetch = .ok (w, i) ↔ c.memory.readWord c.pc = .ok w ∧ Instruction.decode w = .ok i := by
  unfold fetch
  cases c.memory.readWord c.pc with
  | error e => exact iff_of_false nofun nofun
  | ok word =>
    dsimp only
    cases hd : Instruction.decode word with
    | error e =>
      refine iff_of_false nofun fun h => ?_
      rw [Except.ok.inj h.1, h.2] at hd
      cases hd
    | ok instruction =>
      constructor
      · intro h
        cases h
        exact ⟨rfl, hd⟩
      · rintro ⟨hw, hi⟩
        cases hw
        rw [hd] at hi
        cases hi
        rfl

end Cpu

namespace Machine

/-- A step that succeeds while the program runs fetches a word and executes its instruction. -/
theorem exists_executed {m : Machine} {now : Nat} (mode : m.cpu.mode = .running)
    (ok : (m.step now).answer = .ok ()) :
    ∃ w i, m.cpu.memory.readWord m.cpu.pc = .ok w ∧ Instruction.decode w = .ok i ∧
      m.executed (.step now) = some i := by
  have hs := m.stepsTo_step now
  generalize m.step now = stepped at hs ok
  cases hs with
  | stopped => cases ok
  | unloaded => cases ok
  | waits _ _ awaiting =>
    rw [mode] at awaiting
    cases awaiting
  | faults => cases ok
  | executes going loaded mode next =>
    obtain ⟨hfetch, -⟩ := Cpu.next_eq_ok.mp next
    obtain ⟨hw, hi⟩ := Cpu.fetch_eq_ok.mp hfetch
    have hexecuted := executed_step_of_running going loaded mode now
    rw [next] at hexecuted
    exact ⟨_, _, hw, hi, hexecuted⟩

/-- After a step the program goes on where the instruction that was executed leads. -/
theorem leadsTo_of_executed {m : Machine} {now : Nat} {i : Instruction}
    (h : m.executed (.step now) = some i) :
    m.cpu.LeadsTo i (m.step now).state.cpu.pc.toNat := by
  obtain ⟨-, hup, hcheck⟩ := executed_step_eq_some.mp h
  obtain ⟨-, -, w, hfetch⟩ := upcoming_eq_some.mp hup
  have hpc : m.cpu.pc.toNat ≤ 0xFFE := Cpu.pc_le_of_next (Cpu.next_eq_ok.mpr ⟨hfetch, hcheck⟩)
  obtain ⟨delay, sound, ok, hs⟩ := cpu_of_executed h
  rw [Cpu.check_advance] at ok
  rw [hs]
  exact .of_timers (Cpu.leadsTo_execute hpc ok)

/-- A step that executes nothing stays where it is. -/
theorem pc_of_unexecuted {m : Machine} {now : Nat} (h : m.executed (.step now) = none) :
    (m.step now).state.cpu.pc = m.cpu.pc := by
  obtain ⟨delay, sound, ⟨i, hi, -⟩ | ⟨-, hs⟩⟩ := m.cpu_step now
  · cases h.symm.trans hi
  · rw [hs]

/-- Where every machine goes on. A step that succeeds while the program runs executes the instruction
of the word at the program counter, whose form gives the number of the word, and leads where the
table says, as an exact number. Of a skip and its opposite in the same place one ends two
instructions on and the other one instruction, and neither changes anything else. A step that waits
for a key, or that fails, stays where it is. -/
theorem successor_addresses :
    (∀ (m : Machine) (now : Nat), m.cpu.mode = .running → (m.step now).answer = .ok () →
      ∃ w i, m.cpu.memory.readWord m.cpu.pc = .ok w ∧ Instruction.decode w = .ok i ∧
        w.toNat = i.form ∧ m.executed (.step now) = some i ∧
        m.cpu.LeadsTo i (m.step now).state.cpu.pc.toNat) ∧
    (∀ (c : Cpu) (i j : Instruction), i.opposite? = some j →
      c.advance.execute i = Cpu.success { c with pc := c.pc + if c.skips i then 4 else 2 } ∧
        c.advance.execute j = Cpu.success { c with pc := c.pc + if c.skips i then 2 else 4 }) ∧
    (∀ (m : Machine) (now : Nat) (x : Register), m.cpu.mode = .awaitingKey x →
      (m.step now).state.cpu.pc = m.cpu.pc) ∧
    ∀ (m : Machine) (now : Nat) (fault : Fault), (m.step now).answer = .error fault →
      (m.step now).state.cpu.pc = m.cpu.pc := by
  refine ⟨fun m now mode ok => ?_, fun c i j h => c.execute_opposite h,
    fun m now x mode => pc_of_unexecuted (executed_of_awaitingKey mode _),
    fun m now fault failed => pc_of_unexecuted ?_⟩
  · obtain ⟨w, i, hw, hi, hexecuted⟩ := exists_executed mode ok
    exact ⟨w, i, hw, hi, Instruction.toNat_of_decode hi, hexecuted, leadsTo_of_executed hexecuted⟩
  · rw [executed, failed]

/-- A jump with the largest offset leads behind memory, where the next step fails and stays. Before
it the skips on the first register end at different addresses. -/
theorem offset_jump_then_fault :
    let m := (new {} (Vector.replicate 8 0)).after [.load [0x60, 0xFF, 0xBF, 0xFF], .step 0]
    let beyond := (m.step 0).state
    let waiting := (new {} (Vector.replicate 8 0)).after [.load [0xF3, 0x0A], .step 0]
    (m.cpu.mode = .running ∧ (m.step 0).answer = .ok () ∧
      m.cpu.LeadsTo (.jumpWithOffset 0xFFF) beyond.cpu.pc.toNat ∧ beyond.cpu.pc.toNat = 0x10FE) ∧
    ((Instruction.skipIfByte 0 0xFF).opposite? = some (.skipUnlessByte 0 0xFF) ∧
      m.cpu.advance.execute (.skipIfByte 0 0xFF) = Cpu.success { m.cpu with pc := 0x206 } ∧
      m.cpu.advance.execute (.skipUnlessByte 0 0xFF) = Cpu.success { m.cpu with pc := 0x204 }) ∧
    (waiting.cpu.mode = .awaitingKey 3 ∧ (waiting.step 1).state.cpu.pc = 0x202) ∧
    ∃ fault, (beyond.step 0).answer = .error fault ∧ (beyond.step 0).state.cpu.pc = 0x10FE := by
  intro m beyond waiting
  obtain ⟨hsuccess, hskips, hwaits, hfails⟩ := successor_addresses
  -- The machines keep their names only, so that nothing of them is evaluated where they are mentioned.
  clear_value (hwaiting : waiting = _) (hbeyond : beyond = _) (hm : m = _)
  obtain ⟨hmode, hok, hexecuted, hpc, hholds, hjumped, hfault, hawaiting, hbehind⟩ :
      m.cpu.mode = .running ∧ (m.step 0).answer = .ok () ∧
      m.executed (.step 0) = some (.jumpWithOffset 0xFFF) ∧ m.cpu.pc = 0x202 ∧
      m.cpu.skips (.skipIfByte 0 0xFF) = true ∧ beyond.cpu.pc = 0x10FE ∧
      (beyond.step 0).answer =
        .error { pc := 0x10FE, word := none, error := .outsideMemory 0x10FE } ∧
      waiting.cpu.mode = .awaitingKey 3 ∧ waiting.cpu.pc = 0x202 := by
    rw [hwaiting, hbeyond, hm]
    decide +kernel
  obtain ⟨w, i, -, -, -, hi, hleads⟩ := hsuccess m 0 hmode hok
  cases hexecuted.symm.trans hi
  rw [← hbeyond] at hleads
  obtain ⟨hskip, hunless⟩ := hskips m.cpu (.skipIfByte 0 0xFF) (.skipUnlessByte 0 0xFF) rfl
  rw [hpc, hholds] at hskip hunless
  have hwaited := hwaits waiting 1 3 hawaiting
  have hstayed := hfails beyond 0 _ hfault
  rw [hbehind] at hwaited
  rw [hjumped] at hstayed
  exact ⟨⟨hmode, hok, hleads, congrArg UInt16.toNat hjumped⟩, ⟨rfl, hskip, hunless⟩,
    ⟨hawaiting, hwaited⟩, _, hfault, hstayed⟩

end Machine

end Chip8
