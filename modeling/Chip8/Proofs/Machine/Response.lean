import Chip8.Machine.History
import Chip8.Proofs.Cpu.Check

/-!
# What an event does to a machine

`StepsTo` lists the ways in which a step can go, and `Responds` those of every event, each with
what it presupposes and all that it leaves behind. `respond_responds` shows that nothing else can
happen, so that a proof about an event is a case analysis and never opens a definition of the
machine. `after_induction` carries what every event preserves to every history.
-/

namespace Chip8.Machine

/-! ## Steps -/

/-- The report of the instruction at the program counter, if there is one. -/
def announcement (m : Machine) : List Log.Entry :=
  match m.cpu.fetch with
  | .ok (word, i) => [.executing (m.trace word i)]
  | .error _ => []

/-- The ways in which a step can go. -/
inductive StepsTo (m : Machine) (now : Nat) : Stepped → Prop where
  /-- A fault has stopped the program before. -/
  | stopped {fault : Fault} (latched : m.fault = some fault) :
    StepsTo m now { state := m, answer := .error fault }
  /-- There is no program. -/
  | unloaded (going : m.fault = none) (empty : m.loaded = false) :
    StepsTo m now
      { state := m, answer := .error { pc := m.cpu.pc, word := none, error := .nothingLoaded } }
  /-- The program waits for a key. -/
  | waits {x : Register} (going : m.fault = none) (loaded : m.loaded = true)
      (mode : m.cpu.mode = .awaitingKey x) :
    StepsTo m now { state := m.serviceTimers now, answer := .ok () }
  /-- What comes next cannot be executed and stops the program. -/
  | faults {fault : Fault} (going : m.fault = none) (loaded : m.loaded = true)
      (mode : m.cpu.mode = .running) (next : m.cpu.next = .error fault) :
    StepsTo m now
      { state := { m.serviceTimers now with fault := some fault }
        answer := .error fault
        log := (m.serviceTimers now).announcement }
  /-- An instruction is executed. -/
  | executes {word : UInt16} {i : Instruction} (going : m.fault = none) (loaded : m.loaded = true)
      (mode : m.cpu.mode = .running) (next : m.cpu.next = .ok (word, i)) :
    StepsTo m now
      { state := { m.serviceTimers now with
          cpu := ((m.serviceTimers now).cpu.advance.execute i).state }
        answer := .ok ()
        log := .executing ((m.serviceTimers now).trace word i)
          :: ((m.serviceTimers now).cpu.advance.execute i).log }

/-- Servicing the timers touches nothing of the processor but the timers. -/
theorem cpu_serviceTimers (m : Machine) (now : Nat) :
    (m.serviceTimers now).cpu =
      { m.cpu with
        delay := (m.serviceTimers now).cpu.delay
        sound := (m.serviceTimers now).cpu.sound } := by
  unfold serviceTimers
  dsimp only
  split <;> rfl

/-- Servicing the timers does not change what comes next. -/
theorem next_serviceTimers (m : Machine) (now : Nat) :
    (m.serviceTimers now).cpu.next = m.cpu.next := by
  rw [cpu_serviceTimers]
  exact Cpu.next_congr rfl rfl rfl rfl

/-- The program goes on, or stops with the fault that comes next. -/
theorem dispatch_eq (m : Machine) :
    m.dispatch =
      match m.cpu.next with
      | .error fault =>
        { state := { m with fault := some fault }, answer := .error fault, log := m.announcement }
      | .ok (word, i) =>
        { state := { m with cpu := (m.cpu.advance.execute i).state }
          answer := .ok ()
          log := .executing (m.trace word i) :: (m.cpu.advance.execute i).log } := by
  unfold dispatch announcement Cpu.next Cpu.fetch
  cases m.cpu.memory.readWord m.cpu.pc with
  | error e => rfl
  | ok word =>
    dsimp only
    cases Instruction.decode word with
    | error e => rfl
    | ok i =>
      dsimp only
      unfold perform
      -- The instruction is executed from behind itself, where its check says the same.
      cases hc : m.cpu.check i with
      | error e =>
        rw [← Cpu.check_advance] at hc
        rw [Cpu.execute_of_refused hc]
        rfl
      | ok =>
        rw [← Cpu.check_advance] at hc
        dsimp only
        rw [Cpu.answer_of_check hc]

/-- A step goes in one of the ways of `StepsTo`. -/
theorem stepsTo_step (m : Machine) (now : Nat) : m.StepsTo now (m.step now) := by
  unfold step
  cases hf : m.fault with
  | some fault => exact .stopped hf
  | none =>
    dsimp only
    split
    case isFalse hl => exact .unloaded hf (Bool.eq_false_iff.mpr hl)
    case isTrue hl =>
      -- The timers decide neither whether the program waits nor what comes next.
      have hmode : (m.serviceTimers now).cpu.mode = m.cpu.mode := by rw [cpu_serviceTimers]
      unfold proceed
      rw [hmode]
      cases hm : m.cpu.mode with
      | awaitingKey x => exact .waits hf hl hm
      | running =>
        dsimp only
        rw [dispatch_eq, next_serviceTimers]
        cases hn : m.cpu.next with
        | error fault => exact .faults hf hl hm hn
        | ok fetched => exact .executes hf hl hm hn

/-- A step goes in one way only. -/
theorem StepsTo.eq {m : Machine} {now : Nat} {stepped other : Stepped} (h : m.StepsTo now stepped)
    (h' : m.StepsTo now other) : stepped = other := by
  -- Two different ways presuppose what excludes each other.
  cases h <;> cases h' <;> simp_all

/-! ## Events -/

/-- The ways in which a machine can respond to an event. -/
inductive Responds (m : Machine) : Event → Outcome Machine Reply → Prop where
  /-- A second program is refused. -/
  | refusesSecond {program : List UInt8} (loaded : m.loaded = true) :
    Responds m (.load program) { state := m, answer := .refused .alreadyLoaded }
  /-- A program that is too large is refused. -/
  | refusesLarge {program : List UInt8} (empty : m.loaded = false)
      (large : Memory.programLimit < program.length) :
    Responds m (.load program)
      { state := m, answer := .refused (.programTooLarge program.length Memory.programLimit) }
  /-- A program is loaded. -/
  | loads {program : List UInt8} (empty : m.loaded = false)
      (fits : program.length ≤ Memory.programLimit) :
    Responds m (.load program)
      { state := { m with
          cpu := { m.cpu with
            memory := ⟨Memory.overwrite m.cpu.memory.cells Memory.programStart.toNat program⟩
            pc := Memory.programStart }
          loaded := true }
        answer := .done
        log := [.loaded program.length Memory.programStart] }
  /-- A key that does not exist cannot be pressed. -/
  | refusesPress {b : UInt8} (unknown : 16 ≤ b.toNat) :
    Responds m (.press b) { state := m, answer := .refused (.unknownKey b) }
  /-- A key is pressed while nothing waits for it. -/
  | holds {b : UInt8} (key : Key) (name : b.toNat = key.val) (mode : m.cpu.mode = .running) :
    Responds m (.press b)
      { state := { m with cpu := { m.cpu with keypad := m.cpu.keypad.hold key } }
        answer := .done }
  /-- A key is pressed and handed to the register that waits for one. -/
  | delivers {b : UInt8} (key : Key) (name : b.toNat = key.val) {x : Register}
      (mode : m.cpu.mode = .awaitingKey x) :
    Responds m (.press b)
      { state := { m with
          cpu := { m.cpu.put x b with keypad := m.cpu.keypad.hold key, mode := .running } }
        answer := .done
        log := [.keyStored key x] }
  /-- A key that does not exist cannot be released. -/
  | refusesRelease {b : UInt8} (unknown : 16 ≤ b.toNat) :
    Responds m (.release b) { state := m, answer := .refused (.unknownKey b) }
  /-- A key is released. -/
  | releases {b : UInt8} (key : Key) (name : b.toNat = key.val) :
    Responds m (.release b)
      { state := { m with cpu := { m.cpu with keypad := m.cpu.keypad.letGo key } }
        answer := .done }
  /-- The waiting frame is taken, if there is one. -/
  | takes :
    Responds m .takeFrame
      { state := { m with cpu := { m.cpu with frameWaiting := false } }
        answer := .frame (if m.cpu.frameWaiting then some m.cpu.screen else none) }
  /-- The machine makes a step. -/
  | steps {now : Nat} {stepped : Stepped} (step : m.StepsTo now stepped) :
    Responds m (.step now) (stepped.mapAnswer .ofStep)

/-- A byte names the key of its value, or none. -/
theorem ofByte_cases (b : UInt8) :
    (16 ≤ b.toNat ∧ Key.ofByte b = .error (.unknownKey b)) ∨
      ∃ key : Key, b.toNat = key.val ∧ Key.ofByte b = .ok key := by
  unfold Key.ofByte
  by_cases h : b.toNat < 16
  · exact .inr ⟨⟨b.toNat, h⟩, rfl, dif_pos h⟩
  · exact .inl ⟨Nat.le_of_not_lt h, dif_neg h⟩

/-- A program that is not too large can be put in memory. -/
theorem memory_load_of_le (memory : Memory) {program : List UInt8}
    (h : program.length ≤ Memory.programLimit) :
    memory.load program =
      .ok ⟨Memory.overwrite memory.cells Memory.programStart.toNat program⟩ := by
  have hroom : Memory.programStart.toNat + program.length ≤ Memory.size := by
    have hlimit : Memory.programLimit = 3584 := rfl
    have hstart : Memory.programStart.toNat = 512 := rfl
    have hsize : Memory.size = 4096 := rfl
    omega
  rw [Memory.load, if_pos h, Memory.write, Memory.checkAccess, if_pos hroom]
  rfl

/-- A second program is refused. -/
theorem load_of_loaded {m : Machine} (program : List UInt8) (loaded : m.loaded = true) :
    m.load program = m.refuse .alreadyLoaded := by
  rw [load, if_pos loaded]

/-- A program that is too large is refused. -/
theorem load_of_large {m : Machine} {program : List UInt8} (empty : m.loaded = false)
    (large : Memory.programLimit < program.length) :
    m.load program = m.refuse (.programTooLarge program.length Memory.programLimit) := by
  have hmemory : m.cpu.memory.load program =
      .error (.programTooLarge program.length Memory.programLimit) :=
    if_neg (Nat.not_le_of_lt large)
  rw [load, empty, if_neg Bool.false_ne_true, hmemory]

/-- A first program that is not too large is loaded. -/
theorem load_of_le {m : Machine} {program : List UInt8} (empty : m.loaded = false)
    (fits : program.length ≤ Memory.programLimit) :
    m.load program =
      { state := { m with
          cpu := { m.cpu with
            memory := ⟨Memory.overwrite m.cpu.memory.cells Memory.programStart.toNat program⟩
            pc := Memory.programStart }
          loaded := true }
        answer := .ok ()
        log := [.loaded program.length Memory.programStart] } := by
  rw [load, empty, if_neg Bool.false_ne_true, memory_load_of_le _ fits]

/-- A key is handed to nobody while nothing waits for it. -/
theorem deliver_of_running {m : Machine} (key : Key) (h : m.cpu.mode = .running) :
    m.deliver key = { state := m, answer := .ok () } := by
  rw [deliver, h]

/-- A key is handed to the register that waits for it. -/
theorem deliver_of_awaitingKey {m : Machine} {x : Register} (key : Key)
    (h : m.cpu.mode = .awaitingKey x) :
    m.deliver key =
      { state := { m with cpu := { m.cpu.put x (UInt8.ofNat key.val) with mode := .running } }
        answer := .ok ()
        log := [.keyStored key x] } := by
  rw [deliver, h]

/-- How a machine responds to a program. -/
theorem responds_load (m : Machine) (program : List UInt8) :
    m.Responds (.load program) ((m.load program).mapAnswer .ofRequest) := by
  cases hl : m.loaded with
  | true =>
    rw [load_of_loaded program hl]
    exact .refusesSecond hl
  | false =>
    by_cases hsize : program.length ≤ Memory.programLimit
    · rw [load_of_le hl hsize]
      exact .loads hl hsize
    · have hlarge := Nat.lt_of_not_le hsize
      rw [load_of_large hl hlarge]
      exact .refusesLarge hl hlarge

/-- How a machine responds to a key that is pressed. -/
theorem responds_press (m : Machine) (b : UInt8) :
    m.Responds (.press b) ((m.press b).mapAnswer .ofRequest) := by
  obtain ⟨hb, hk⟩ | ⟨key, hb, hk⟩ := ofByte_cases b
  · rw [press, hk]
    exact .refusesPress hb
  · cases hm : m.cpu.mode with
    | running =>
      have hp : m.press b =
          { state := { m with cpu := { m.cpu with keypad := m.cpu.keypad.hold key } }
            answer := .ok () } := by
        rw [press, hk]
        exact deliver_of_running key hm
      rw [hp]
      exact .holds key hb hm
    | awaitingKey x =>
      have hp : m.press b =
          { state := { m with
              cpu := { m.cpu.put x b with keypad := m.cpu.keypad.hold key, mode := .running } }
            answer := .ok ()
            log := [.keyStored key x] } := by
        have hbyte : b = UInt8.ofNat key.val := by rw [← hb, UInt8.ofNat_toNat]
        rw [press, hk, hbyte]
        exact deliver_of_awaitingKey key hm
      rw [hp]
      exact .delivers key hb hm

/-- How a machine responds to a key that is released. -/
theorem responds_release (m : Machine) (b : UInt8) :
    m.Responds (.release b) ((m.release b).mapAnswer .ofRequest) := by
  unfold release
  obtain ⟨hb, hk⟩ | ⟨key, hb, hk⟩ := ofByte_cases b
  · rw [hk]
    exact .refusesRelease hb
  · rw [hk]
    exact .releases key hb

/-- How a machine responds when the waiting frame is taken. -/
theorem responds_takeFrame (m : Machine) :
    m.Responds .takeFrame (m.takeFrame.mapAnswer .frame) := by
  have h : m.Responds .takeFrame _ := .takes
  unfold takeFrame
  cases hw : m.cpu.frameWaiting with
  | true =>
    rw [hw] at h
    exact h
  | false =>
    -- The flag is off already, so switching it off changes nothing.
    have hoff : { m with cpu := { m.cpu with frameWaiting := false } } = m := by rw [← hw]
    rw [hoff, hw] at h
    exact h

/-- A machine responds to an event in one of the ways of `Responds`. -/
theorem responds_respond (m : Machine) (event : Event) : m.Responds event (m.respond event) := by
  cases event with
  | load program => exact m.responds_load program
  | press b => exact m.responds_press b
  | release b => exact m.responds_release b
  | takeFrame => exact m.responds_takeFrame
  | step now => exact .steps (m.stepsTo_step now)

/-! ## Histories -/

/-- What every event preserves, every history preserves. -/
theorem after_induction {P : Machine → Prop}
    (preserved : ∀ (m : Machine) (event : Event) (outcome : Outcome Machine Reply),
      m.Responds event outcome → P m → P outcome.state)
    (m : Machine) (events : List Event) (start : P m) : P (m.after events) := by
  induction events generalizing m with
  | nil => exact start
  | cons event rest ih => exact ih _ (preserved m event _ (m.responds_respond event) start)

end Chip8.Machine
