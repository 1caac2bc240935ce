import Chip8.Machine.History
import Chip8.Proofs.Checked.Cpu

/-!
# Nothing fails

The machine with its memory set up, its program loaded, its keys pressed and its instructions
fetched, decoded and executed by checked operations, and its histories. `runs_through` is the
result: from a new machine on, every history runs through, whatever was loaded and whenever the
steps are made, and does what `Machine.replay` does. No invariant is needed for that. A check that
could fail depends on operands that are bounded by their types, or is made after a test of the
machine that rules the failure out, and so each operation runs through in every state.
-/

namespace Chip8.Checked

/-- A new machine. -/
def new (config : Config) (entropy : Random.Key) : Option Machine := do
  let m := Machine.new config entropy
  return { m with cpu := { m.cpu with memory := ← initialMemory } }

/-- Puts a program in memory. -/
def load (m : Machine) (program : List UInt8) : Option (Outcome Machine (Except Error Unit)) := do
  if m.loaded then return m.refuse .alreadyLoaded
  else
    match ← loadProgram m.cpu.memory program with
    | .error e => return m.refuse e
    | .ok memory =>
      return {
        state := { m with
          cpu := { m.cpu with memory := memory, pc := Memory.programStart }
          loaded := true }
        answer := .ok ()
        log := [.loaded program.length Memory.programStart] }

/-- Hands the key that a byte names to the register that waits for one, if any does. -/
def deliver (m : Machine) (b : UInt8) : Option (Outcome Machine (Except Error Unit)) := do
  match m.cpu.mode with
  | .running => return { state := m, answer := .ok () }
  | .awaitingKey x =>
    let cpu ← set m.cpu x b
    return {
      state := { m with cpu := { cpu with mode := .running } }
      answer := .ok ()
      log := [.keyStored (← digit b) x] }

/-- Presses the key that a byte names. -/
def press (m : Machine) (b : UInt8) : Option (Outcome Machine (Except Error Unit)) := do
  match ← mask b with
  | .error e => return m.refuse e
  | .ok bit => deliver { m with cpu := { m.cpu with keypad := ⟨m.cpu.keypad.bits ||| bit⟩ } } b

/-- Releases the key that a byte names. -/
def release (m : Machine) (b : UInt8) : Option (Outcome Machine (Except Error Unit)) := do
  match ← mask b with
  | .error e => return m.refuse e
  | .ok bit =>
    return {
      state := { m with cpu := { m.cpu with keypad := ⟨m.cpu.keypad.bits &&& ~~~bit⟩ } }
      answer := .ok () }

/-- Executes an instruction that the program counter points at. -/
def perform (m : Machine) (word : UInt16) (instruction : Instruction) :
    Option Machine.Stepped := do
  let done ← execute m.cpu.advance instruction
  let log := .executing (m.trace word instruction) :: done.log
  match done.answer with
  | .ok () => return { state := { m with cpu := done.state }, answer := .ok (), log := log }
  | .error e => return { m with cpu := { done.state with pc := m.cpu.pc } }.halt (some word) e log

/-- Fetches, decodes and executes the next instruction. -/
def dispatch (m : Machine) : Option Machine.Stepped := do
  match ← readWord m.cpu.memory m.cpu.pc with
  | .error e => return m.halt none e []
  | .ok word =>
    match ← decode word with
    | .error e => return m.halt (some word) e []
    | .ok instruction => perform m word instruction

/-- Executes the next instruction unless the program waits for a key. -/
def proceed (m : Machine) : Option Machine.Stepped :=
  match m.cpu.mode with
  | .awaitingKey _ => some { state := m, answer := .ok () }
  | .running => dispatch m

/-- One step. -/
def step (m : Machine) (now : Nat) : Option Machine.Stepped :=
  match m.fault with
  | some fault => some { state := m, answer := .error fault }
  | none =>
    if m.loaded then proceed (m.serviceTimers now)
    else
      some { state := m, answer := .error { pc := m.cpu.pc, word := none, error := .nothingLoaded } }

/-- What an event does to a machine. -/
def respond (m : Machine) : Event → Option (Outcome Machine Reply)
  | .load program => do return (← load m program).mapAnswer .ofRequest
  | .press key => do return (← press m key).mapAnswer .ofRequest
  | .release key => do return (← release m key).mapAnswer .ofRequest
  | .takeFrame => return m.takeFrame.mapAnswer .frame
  | .step now => do return (← step m now).mapAnswer .ofStep

/-- What a history does to a machine. -/
def replay (m : Machine) : List Event → Option (Outcome Machine (List Reply))
  | [] => some { state := m, answer := [] }
  | event :: rest => do
    let first ← respond m event
    let later ← replay first.state rest
    return {
      state := later.state
      answer := first.answer :: later.answer
      log := first.log ++ later.log }

/-- A new machine can be made. -/
theorem new_eq (config : Config) (entropy : Random.Key) :
    new config entropy = some (Machine.new config entropy) := by
  rw [new, initialMemory_eq]
  rfl

/-- Loading runs through. -/
theorem load_eq (m : Machine) (program : List UInt8) : load m program = some (m.load program) := by
  unfold load Machine.load
  by_cases hloaded : m.loaded
  · rw [if_pos hloaded, if_pos hloaded]
    rfl
  · rw [if_neg hloaded, if_neg hloaded, loadProgram_eq]
    cases m.cpu.memory.load program <;> rfl

/-- Handing a key to a register runs through. -/
theorem deliver_eq (m : Machine) (key : Key) {b : UInt8} (h : b.toNat = key.val) :
    deliver m b = some (m.deliver key) := by
  have hbyte : UInt8.ofNat key.val = b := by rw [← h, UInt8.ofNat_toNat]
  unfold deliver Machine.deliver
  cases m.cpu.mode with
  | running => rfl
  | awaitingKey x =>
    simp only [set_eq, digit_of_toNat h, hbyte]
    rfl

/-- Pressing runs through, for a byte that names no key as well. -/
theorem press_eq (m : Machine) (b : UInt8) : press m b = some (m.press b) := by
  rw [press, mask_eq, Option.bind_eq_bind, Option.bind_some]
  unfold Machine.press Key.ofByte
  by_cases h : b.toNat < 16
  · -- The bit that is set is the one that `Keypad.hold` sets.
    simp only [dif_pos h, Except.map]
    exact deliver_eq _ ⟨b.toNat, h⟩ rfl
  · simp only [dif_neg h, Except.map]
    rfl

/-- Releasing runs through, for a byte that names no key as well. -/
theorem release_eq (m : Machine) (b : UInt8) : release m b = some (m.release b) := by
  rw [release, mask_eq, Option.bind_eq_bind, Option.bind_some, Machine.release]
  cases Key.ofByte b <;> rfl

/-- Executing the instruction that the program counter points at runs through. -/
theorem perform_eq (m : Machine) (word : UInt16) (instruction : Instruction) :
    perform m word instruction = some (m.perform word instruction) := by
  rw [perform, execute_eq, Option.bind_eq_bind, Option.bind_some, Machine.perform]
  cases (m.cpu.advance.execute instruction).answer <;> rfl

/-- Fetching, decoding and executing run through. -/
theorem dispatch_eq (m : Machine) : dispatch m = some m.dispatch := by
  rw [dispatch, readWord_eq, Option.bind_eq_bind, Option.bind_some, Machine.dispatch]
  cases m.cpu.memory.readWord m.cpu.pc with
  | error e => rfl
  | ok word =>
    simp only [decode_eq]
    cases Instruction.decode word with
    | error e => rfl
    | ok instruction => exact perform_eq m word instruction

/-- A step runs through. -/
theorem step_eq (m : Machine) (now : Nat) : step m now = some (m.step now) := by
  have hproceed (m : Machine) : proceed m = some m.proceed := by
    unfold proceed Machine.proceed
    cases m.cpu.mode with
    | running => exact dispatch_eq m
    | awaitingKey x => rfl
  unfold step Machine.step
  cases m.fault with
  | some fault => rfl
  | none =>
    by_cases hloaded : m.loaded
    · simp only [if_pos hloaded]
      exact hproceed (m.serviceTimers now)
    · simp only [if_neg hloaded]

/-- Every event runs through. -/
theorem respond_eq (m : Machine) (event : Event) : respond m event = some (m.respond event) := by
  cases event with
  | load program => rw [respond, load_eq]; rfl
  | press key => rw [respond, press_eq]; rfl
  | release key => rw [respond, release_eq]; rfl
  | takeFrame => rfl
  | step now => rw [respond, step_eq]; rfl

/-- Every history runs through. -/
theorem replay_eq (m : Machine) (events : List Event) :
    replay m events = some (m.replay events) := by
  induction events generalizing m with
  | nil => rfl
  | cons event rest ih =>
    rw [replay, respond_eq, Option.bind_eq_bind, Option.bind_some, ih]
    rfl

/-- Nothing that is done to a machine from the first moment on makes a sum or a product too wide,
a shift too far, a division by zero or an access out of bounds. Neither does making a machine,
taking any word apart, executing any instruction in any state, or making the bit of a key, which is
made for the bytes up to fifteen only. What is computed is what the machine does. -/
theorem runs_through :
    (∀ (config : Config) (entropy : Random.Key) (events : List Event),
      ((new config entropy).bind fun m => replay m events) =
        some ((Machine.new config entropy).replay events)) ∧
    (∀ (m : Machine) (event : Event), respond m event = some (m.respond event)) ∧
    (∀ w : UInt16, decode w = some (Instruction.decode w)) ∧
    (∀ (c : Cpu) (i : Instruction), execute c i = some (c.execute i)) ∧
    (∀ b : UInt8, mask b = some ((Key.ofByte b).map fun key => BitVec.twoPow 16 key.val)) := by
  refine ⟨fun config entropy events => ?_, respond_eq, decode_eq, execute_eq, mask_eq⟩
  rw [new_eq, Option.bind_some, replay_eq]

end Chip8.Checked
