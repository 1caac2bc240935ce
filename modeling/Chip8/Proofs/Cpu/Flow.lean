import Chip8.Proofs.Cpu.Check

/-!
# The flow of control

What an instruction does to the program counter and the call stack. Four instructions redirect the
program: the two jumps, the call, and the return. Every other one goes on behind itself, or behind
the instruction that it skips, and leaves the call stack alone. `Flow` lists these cases, seen from
behind the instruction, and `flow_execute` shows that there are no others.
-/

namespace Chip8

/-- Whether an instruction, once it is executed, goes on elsewhere than behind itself. -/
def Instruction.redirects : Instruction → Bool
  | .returnToCaller => true
  | .jump _ => true
  | .call _ => true
  | .jumpWithOffset _ => true
  | _ => false

namespace Cpu

/-- Whether an instruction skips the one behind it. -/
def skips (c : Cpu) : Instruction → Bool
  | .skipIfByte x byte => c.get x == byte
  | .skipUnlessByte x byte => c.get x != byte
  | .skipIfSame x y => c.get x == c.get y
  | .skipUnlessSame x y => c.get x != c.get y
  | .skipIfHeld x => c.keypad.isHeld (c.get x)
  | .skipUnlessHeld x => !c.keypad.isHeld (c.get x)
  | _ => false

/-- The program counter and the call stack that an instruction can leave behind. -/
inductive Flow (c : Cpu) : Instruction → UInt16 → CallStack → Prop where
  /-- An instruction that redirects nothing goes on behind itself or skips. -/
  | passes {i : Instruction} (straight : i.redirects = false) :
    Flow c i (c.skipIf (c.skips i)).pc c.stack
  /-- An instruction that is refused goes nowhere. -/
  | stays {i : Instruction} {e : Error} (refused : c.check i = .error e) : Flow c i c.pc c.stack
  /-- A jump goes to its target. -/
  | jumps (target : Address) : Flow c (.jump target) target.toWord c.stack
  /-- A jump with offset goes as far behind its target as the first register says. -/
  | jumpsWithOffset (target : Address) :
    Flow c (.jumpWithOffset target) (target.toWord + (c.get .zero).toUInt16) c.stack
  /-- A call goes to its target and remembers where it came from. -/
  | calls (target : Address) (room : c.stack.depth < CallStack.capacity) :
    Flow c (.call target) target.toWord ⟨c.pc :: c.stack.frames⟩
  /-- A return goes where the innermost call came from and forgets it. -/
  | returns {address : UInt16} {outer : List UInt16} (top : c.stack.frames = address :: outer) :
    Flow c .returnToCaller address ⟨outer⟩

/-- A target is an address of memory. -/
theorem toNat_toWord_le (target : Address) : target.toWord.toNat ≤ 0xFFF := by
  have h := target.isLt
  simp only [Address.toWord, UInt16.toNat_ofNat']
  omega

/-- A skip changes the program counter only. -/
theorem stack_skipIf (c : Cpu) (condition : Bool) : (c.skipIf condition).stack = c.stack := by
  cases condition <;> rfl

/-- Storing bytes in memory leaves the flow of control alone. -/
theorem flow_store (c : Cpu) (bytes : List UInt8) :
    (c.store bytes).state.pc = c.pc ∧ (c.store bytes).state.stack = c.stack := by
  unfold store
  split <;> exact ⟨rfl, rfl⟩

/-- Reading registers from memory leaves the flow of control alone. -/
theorem flow_loadRegisters (c : Cpu) (x : Register) :
    (c.loadRegisters x).state.pc = c.pc ∧ (c.loadRegisters x).state.stack = c.stack := by
  unfold loadRegisters
  -- By `rfl` the registers would be compared one by one before the program counter.
  split <;> simp only [success, failure, and_self]

/-- Drawing leaves the flow of control alone. -/
theorem flow_drawSprite (c : Cpu) (x y : Register) (height : Fin 16) :
    (c.drawSprite x y height).state.pc = c.pc ∧
      (c.drawSprite x y height).state.stack = c.stack := by
  unfold drawSprite
  split <;> exact ⟨rfl, rfl⟩

/-- Combining registers leaves the flow of control alone. -/
theorem flow_combine (c : Cpu) (operation : Operation) (x y : Register) :
    (c.combine operation x y).pc = c.pc ∧ (c.combine operation x y).stack = c.stack := by
  unfold combine
  dsimp only
  split <;> exact ⟨rfl, rfl⟩

/-- An instruction other than a call or a return leaves the call stack alone. -/
theorem flow_of_straight (c : Cpu) {i : Instruction} (straight : i.redirects = false) :
    (c.execute i).state.pc = (c.skipIf (c.skips i)).pc ∧ (c.execute i).state.stack = c.stack := by
  cases i <;> simp only [Instruction.redirects, reduceCtorEq] at straight
  case skipIfByte => exact ⟨rfl, c.stack_skipIf _⟩
  case skipUnlessByte => exact ⟨rfl, c.stack_skipIf _⟩
  case skipIfSame => exact ⟨rfl, c.stack_skipIf _⟩
  case skipUnlessSame => exact ⟨rfl, c.stack_skipIf _⟩
  case skipIfHeld => exact ⟨rfl, c.stack_skipIf _⟩
  case skipUnlessHeld => exact ⟨rfl, c.stack_skipIf _⟩
  case combine operation x y => exact c.flow_combine operation x y
  case drawSprite x y height => exact c.flow_drawSprite x y height
  case storeDigits x => exact c.flow_store (decimalDigits (c.get x))
  case storeRegisters x => exact c.flow_store (c.registersUpTo x)
  case loadRegisters x => exact c.flow_loadRegisters x
  all_goals exact ⟨rfl, rfl⟩

/-- The flow of control of an instruction is one of the cases of `Flow`. -/
theorem flow_execute (c : Cpu) (i : Instruction) :
    c.Flow i (c.execute i).state.pc (c.execute i).state.stack := by
  cases hc : c.check i with
  | error e =>
    rw [execute_of_refused hc]
    exact .stays hc
  | ok =>
    -- Only the four that redirect the program are left to look at one by one.
    cases hr : i.redirects with
    | false =>
      obtain ⟨hp, hs⟩ := c.flow_of_straight hr
      rw [hp, hs]
      exact .passes hr
    | true =>
      cases i <;> simp only [Instruction.redirects, reduceCtorEq] at hr
      case jump target => exact .jumps target
      case jumpWithOffset target => exact .jumpsWithOffset target
      case call target =>
        have room := room_of_check hc
        have hp : c.stack.push c.pc = .ok ⟨c.pc :: c.stack.frames⟩ := if_pos room
        simp only [execute, call, hp]
        exact .calls target room
      case returnToCaller =>
        obtain ⟨address, outer, top⟩ := frames_of_check hc
        have hp : c.stack.pop = .ok (address, ⟨outer⟩) := by rw [CallStack.pop, top]
        simp only [execute, returnToCaller, hp]
        exact .returns top

end Cpu

end Chip8
