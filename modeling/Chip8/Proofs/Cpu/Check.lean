import Chip8.Cpu.Execute

/-!
# What an instruction needs

Six instructions can be refused: a return needs a call in progress, a call needs a place for its
return address, and four instructions need the memory that they cover to exist. `check` states
these needs. It looks at the call stack and the index register only, so that nothing else decides
whether an instruction is executed. `answer_execute` shows that executing an instruction answers
what the check says, and `execute_of_refused` that an instruction which is refused has no effect.

`fetch` reads the word at the program counter, and `next` adds the check of its instruction. It is
what a step of a machine hangs on: either an instruction that can be executed, or a fault.
-/

namespace Chip8.Cpu

/-- Whether an instruction can be executed, and if not, why. -/
def check (c : Cpu) : Instruction → Except Error Unit
  | .returnToCaller => if c.stack.isEmpty then .error .emptyCallStack else .ok ()
  | .call _ => if c.stack.depth < CallStack.capacity then .ok () else .error .fullCallStack
  | .drawSprite _ _ height => Memory.checkAccess c.index height.val
  | .storeDigits _ => Memory.checkAccess c.index 3
  | .storeRegisters x => Memory.checkAccess c.index (x.val + 1)
  | .loadRegisters x => Memory.checkAccess c.index (x.val + 1)
  | _ => .ok ()

/-- The check depends on the call stack and the index register only. -/
theorem check_congr {c d : Cpu} (hs : c.stack = d.stack) (hi : c.index = d.index)
    (i : Instruction) : c.check i = d.check i := by
  cases i <;> simp only [check, hs, hi]

/-- An access is refused only because it leaves memory. -/
theorem error_of_checkAccess {start : UInt16} {count : Nat} {e : Error}
    (h : Memory.checkAccess start count = .error e) :
    e = .outsideMemory (max start.toNat Memory.size) := by
  unfold Memory.checkAccess at h
  split at h
  · cases h
  · exact (Except.error.inj h).symm

/-- An instruction is refused for the state of the call stack or for the bounds of memory. -/
theorem error_of_check {c : Cpu} {i : Instruction} {e : Error} (h : c.check i = .error e) :
    e = .emptyCallStack ∨ e = .fullCallStack ∨ ∃ address, e = .outsideMemory address := by
  cases i <;> simp only [check, reduceCtorEq] at h
  case returnToCaller =>
    split at h
    · exact .inl (Except.error.inj h).symm
    · cases h
  case call =>
    split at h
    · cases h
    · exact .inr (.inl (Except.error.inj h).symm)
  all_goals exact .inr (.inr ⟨_, error_of_checkAccess h⟩)

/-- As many registers go up to one as its number says, and one more. -/
theorem length_registersUpTo (c : Cpu) (x : Register) :
    (c.registersUpTo x).length = x.val + 1 := by
  simp only [registersUpTo, List.length_take, Vector.length_toList]
  omega

/-- An instruction that is refused has no effect. -/
theorem execute_of_refused {c : Cpu} {i : Instruction} {e : Error} (h : c.check i = .error e) :
    c.execute i = failure c e := by
  cases i <;> simp only [check, reduceCtorEq] at h
  case returnToCaller =>
    cases hs : c.stack.frames with
    | nil =>
      simp only [CallStack.isEmpty, hs, List.isEmpty_nil, if_true, Except.error.injEq] at h
      simp only [execute, returnToCaller, CallStack.pop, hs, h]
    | cons address outer => simp [CallStack.isEmpty, hs] at h
  case call target =>
    split at h
    · cases h
    · rename_i hfull
      simp only [execute, call, CallStack.push, if_neg hfull]
      rw [Except.error.inj h]
  case drawSprite x y height => simp only [execute, drawSprite, sprite, Memory.read, h, Except.map]
  case storeDigits x =>
    have hw : Memory.checkAccess c.index (decimalDigits (c.get x)).length = .error e := h
    simp only [execute, store, Memory.write, hw, Except.map]
  case storeRegisters x =>
    rw [← length_registersUpTo c x] at h
    simp only [execute, store, Memory.write, h, Except.map]
  case loadRegisters x => simp only [execute, loadRegisters, Memory.read, h, Except.map]

/-- A return that passes its check has a call to return from. -/
theorem frames_of_check {c : Cpu} (h : c.check .returnToCaller = .ok ()) :
    ∃ address outer, c.stack.frames = address :: outer := by
  cases hs : c.stack.frames with
  | nil => simp [check, CallStack.isEmpty, hs] at h
  | cons address outer => exact ⟨address, outer, rfl⟩

/-- A call that passes its check has a place for its return address. -/
theorem room_of_check {c : Cpu} {target : Address} (h : c.check (.call target) = .ok ()) :
    c.stack.depth < CallStack.capacity := by
  simp only [check] at h
  split at h
  · assumption
  · cases h

/-- An instruction that passes its check is executed. -/
theorem answer_of_check {c : Cpu} {i : Instruction} (h : c.check i = .ok ()) :
    (c.execute i).answer = .ok () := by
  cases i <;> try rfl
  case returnToCaller =>
    obtain ⟨address, outer, hs⟩ := frames_of_check h
    simp only [execute, returnToCaller, CallStack.pop, hs, success]
  case call target => simp only [execute, call, CallStack.push, if_pos (room_of_check h), success]
  case drawSprite x y height =>
    have hr : Memory.checkAccess c.index height.val = .ok () := h
    simp only [execute, drawSprite, sprite, Memory.read, hr, Except.map, success]
  case storeDigits x =>
    have hw : Memory.checkAccess c.index (decimalDigits (c.get x)).length = .ok () := h
    simp only [execute, store, Memory.write, hw, Except.map, success]
  case storeRegisters x =>
    have hw : Memory.checkAccess c.index (c.registersUpTo x).length = .ok () := by
      rw [length_registersUpTo]
      exact h
    simp only [execute, store, Memory.write, hw, Except.map, success]
  case loadRegisters x =>
    have hr : Memory.checkAccess c.index (x.val + 1) = .ok () := h
    simp only [execute, loadRegisters, Memory.read, hr, Except.map, success]

/-- Executing an instruction answers what its check says. -/
theorem answer_execute (c : Cpu) (i : Instruction) : (c.execute i).answer = c.check i := by
  cases h : c.check i with
  | ok => exact answer_of_check h
  | error e => rw [execute_of_refused h, failure]

/-- The check of an instruction does not depend on where the program counter points. -/
theorem check_advance (c : Cpu) (i : Instruction) : c.advance.check i = c.check i :=
  check_congr rfl rfl i

/-! ## The instruction that comes next -/

/-- The word at the program counter and the instruction that it encodes. -/
def fetch (c : Cpu) : Except Fault (UInt16 × Instruction) :=
  match c.memory.readWord c.pc with
  | .error e => .error { pc := c.pc, word := none, error := e }
  | .ok word =>
    match Instruction.decode word with
    | .error e => .error { pc := c.pc, word := some word, error := e }
    | .ok i => .ok (word, i)

/-- The word at the program counter and its instruction, which can be executed, or the fault that
stops the program there. -/
def next (c : Cpu) : Except Fault (UInt16 × Instruction) :=
  match c.fetch with
  | .error fault => .error fault
  | .ok (word, i) =>
    match c.check i with
    | .error e => .error { pc := c.pc, word := some word, error := e }
    | .ok () => .ok (word, i)

/-- What comes next can be executed exactly when it is fetched and passes its check. -/
theorem next_eq_ok {c : Cpu} {word : UInt16} {i : Instruction} :
    c.next = .ok (word, i) ↔ c.fetch = .ok (word, i) ∧ c.check i = .ok () := by
  unfold next
  cases c.fetch with
  | error fault => simp
  | ok fetched =>
    obtain ⟨word', i'⟩ := fetched
    dsimp only
    cases hc : c.check i' with
    | error e =>
      constructor
      · intro h
        cases h
      · rintro ⟨h, ok⟩
        cases h
        rw [hc] at ok
        cases ok
    | ok =>
      constructor
      · intro h
        cases h
        exact ⟨rfl, hc⟩
      · rintro ⟨h, -⟩
        exact h

/-- What is fetched depends on memory and the program counter only. -/
theorem fetch_congr {c d : Cpu} (hm : c.memory = d.memory) (hp : c.pc = d.pc) :
    c.fetch = d.fetch := by
  unfold fetch
  rw [hm, hp]

/-- What comes next depends on memory, the program counter, the call stack, and the index register
only. -/
theorem next_congr {c d : Cpu} (hm : c.memory = d.memory) (hp : c.pc = d.pc)
    (hs : c.stack = d.stack) (hi : c.index = d.index) : c.next = d.next := by
  unfold next
  rw [fetch_congr hm hp]
  simp only [check_congr hs hi, hp]

end Chip8.Cpu
