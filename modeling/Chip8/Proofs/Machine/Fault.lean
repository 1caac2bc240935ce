import Chip8.Proofs.Machine.Response
import Mathlib.Control.Monad.Basic

/-!
# Faults

A fault stops a program for good. Two statements say how. `failure_without_effect` is about the
moment at which it happens: a failing instruction changes nothing, and a failing step nothing but
the timers and the fault. `fault_faithful_and_final` is about all that comes later: the fault
describes the instruction at which the machine stands, which would fail in the same way again, and
whatever is done to the machine, it answers every step with that fault and only the keys that are
held and the waiting frame can still change.

The second rests on an invariant, `StoppedBy`: the fault is what comes next for the processor. Since
it is raised before anything is stored, it holds when the fault is raised, and since what comes next
depends neither on the keypad nor on the frame, it holds from then on. The invariant also says that
no register waits for a key. Otherwise a key that is pressed later would still be stored.

That a fault stays known needs less, and holds of every machine (`fault_after`).
-/

namespace Chip8

/-- Whether an error is an answer to a request, and so never stops a program. -/
def Error.answersRequest : Error → Bool
  | .programTooLarge _ _ => true
  | .alreadyLoaded => true
  | .nothingLoaded => true
  | .unknownKey _ => true
  | _ => false

/-- Decodes a word and executes its instruction, of which only the answer is kept. -/
def Cpu.attempt (c : Cpu) (word : UInt16) : Except Error Unit :=
  match Instruction.decode word with
  | .error e => .error e
  | .ok i => (c.execute i).answer

namespace Cpu

/-- A word that cannot be fetched lies outside memory, which is an error of the program. -/
theorem error_of_readWord {m : Memory} {address : UInt16} {e : Error}
    (h : m.readWord address = .error e) : e.answersRequest = false := by
  unfold Memory.readWord at h
  cases ha : Memory.checkAccess address 2 with
  | ok => rw [ha] at h; cases h
  | error e' =>
    rw [ha] at h
    rw [← Except.error.inj h, error_of_checkAccess ha]
    rfl

/-- A word that encodes no instruction is an error of the program. -/
theorem error_of_decode {word : UInt16} {e : Error} (h : Instruction.decode word = .error e) :
    e.answersRequest = false := by
  unfold Instruction.decode at h
  split at h
  · cases h
  · rw [← Except.error.inj h]
    split <;> rfl

/-- Whether a word can be executed depends on the call stack and the index register only. -/
theorem attempt_congr {c d : Cpu} (hs : c.stack = d.stack) (hi : c.index = d.index)
    (word : UInt16) : c.attempt word = d.attempt word := by
  unfold attempt
  simp only [answer_execute, check_congr hs hi]

/-- A fault that comes next points at the program counter. Either no word can be fetched there, or
the fault holds the word, and attempting it fails with the error of the fault. -/
theorem cases_of_next_error {c : Cpu} {fault : Fault} (h : c.next = .error fault) :
    fault.pc = c.pc ∧
      ((fault.word = none ∧ c.memory.readWord c.pc = .error fault.error) ∨
        ∃ word, fault.word = some word ∧ c.memory.readWord c.pc = .ok word ∧
          c.attempt word = .error fault.error) := by
  unfold next fetch at h
  cases hr : c.memory.readWord c.pc with
  | error e =>
    -- No word can be fetched.
    rw [hr] at h
    cases h
    exact ⟨rfl, .inl ⟨rfl, rfl⟩⟩
  | ok word =>
    rw [hr] at h
    dsimp only at h
    cases hd : Instruction.decode word with
    | error e =>
      -- The word encodes no instruction.
      rw [hd] at h
      cases h
      exact ⟨rfl, .inr ⟨word, rfl, rfl, by rw [attempt, hd]⟩⟩
    | ok i =>
      rw [hd] at h
      dsimp only at h
      cases hc : c.check i with
      | error e =>
        -- The instruction is refused, now as whenever it is executed here.
        rw [hc] at h
        cases h
        refine ⟨rfl, .inr ⟨word, rfl, rfl, ?_⟩⟩
        rw [attempt, hd, ← hc]
        exact c.answer_execute i
      | ok =>
        rw [hc] at h
        cases h

/-- A fault that comes next is an error of the program. -/
theorem error_of_next {c : Cpu} {fault : Fault} (h : c.next = .error fault) :
    fault.error.answersRequest = false := by
  obtain ⟨-, ⟨-, hr⟩ | ⟨word, -, -, ha⟩⟩ := cases_of_next_error h
  · exact error_of_readWord hr
  · unfold attempt at ha
    cases hd : Instruction.decode word with
    | error e =>
      rw [hd] at ha
      rw [← Except.error.inj ha]
      exact error_of_decode hd
    | ok i =>
      rw [hd] at ha
      dsimp only at ha
      rw [answer_execute] at ha
      obtain he | he | ⟨address, he⟩ := error_of_check ha <;> rw [he] <;> rfl

end Cpu

namespace Machine

/-! ## The moment of failure -/

/-- A timer that counts down stops at zero. -/
theorem toNat_countDown (timer : UInt8) : (countDown timer).toNat = timer.toNat - 1 := by
  unfold countDown
  split
  · rename_i h
    rw [h]
    rfl
  · rename_i h
    have hpos : timer.toNat ≠ 0 := fun h0 => h (UInt8.toNat_inj.mp h0)
    have hle : (1 : UInt8) ≤ timer := UInt8.le_iff_toNat_le.mpr (Nat.one_le_iff_ne_zero.mpr hpos)
    rw [UInt8.toNat_sub_of_le _ _ hle]
    rfl

/-- What servicing the timers does: the clock is looked at, and each timer counts down by as many
ticks as it makes, which is at most one. -/
theorem serviceTimers_spec (m : Machine) (now : Nat) :
    (m.serviceTimers now).clock = (m.clock.tick now).1 ∧
      (m.serviceTimers now).cpu.delay.toNat =
        m.cpu.delay.toNat - (m.clock.tick now).2.toNat ∧
      (m.serviceTimers now).cpu.sound.toNat =
        m.cpu.sound.toNat - (m.clock.tick now).2.toNat := by
  unfold serviceTimers
  dsimp only
  cases (m.clock.tick now).2 with
  | true => exact ⟨rfl, toNat_countDown _, toNat_countDown _⟩
  | false => exact ⟨rfl, rfl, rfl⟩

/-- A program that is loaded and stops at this step stops with the fault that comes next, and the
step leaves nothing else behind than what servicing the timers does. -/
theorem step_of_error {m : Machine} {now : Nat} {fault : Fault} (loaded : m.loaded = true)
    (going : m.fault = none) (h : (m.step now).answer = .error fault) :
    m.cpu.next = .error fault ∧
      (m.step now).state = { m.serviceTimers now with fault := some fault } := by
  have hs := m.stepsTo_step now
  generalize m.step now = stepped at h hs ⊢
  cases hs with
  | stopped latched => rw [going] at latched; cases latched
  | unloaded _ empty => rw [loaded] at empty; cases empty
  | waits => cases h
  | faults _ _ _ next => cases h; exact ⟨next, rfl⟩
  | executes => cases h

/-- An instruction that fails leaves the whole processor as it was, and the source of random bytes
with it. A step that fails leaves behind the fault, the clock as it is after a look at it, and both
timers counted down by one if it ticked, down to zero. All else is as before, and the program
counter is still at the address of the fault. -/
theorem failure_without_effect :
    (∀ (c : Cpu) (i : Instruction) (e : Error),
      (c.execute i).answer = .error e → (c.execute i).state = c) ∧
    ∀ (m : Machine) (now : Nat) (fault : Fault), m.loaded = true → m.fault = none →
      (m.step now).answer = .error fault →
      ∃ delay sound : UInt8,
        (m.step now).state =
          { m with
            cpu := { m.cpu with delay := delay, sound := sound }
            clock := (m.clock.tick now).1
            fault := some fault } ∧
        delay.toNat = m.cpu.delay.toNat - (m.clock.tick now).2.toNat ∧
        sound.toNat = m.cpu.sound.toNat - (m.clock.tick now).2.toNat ∧
        (m.step now).state.cpu.pc = fault.pc := by
  constructor
  · -- An instruction that fails is one that was refused.
    intro c i e h
    rw [Cpu.answer_execute] at h
    rw [Cpu.execute_of_refused h, Cpu.failure]
  · -- A step that fails has done nothing but service the timers.
    intro m now fault loaded going h
    obtain ⟨hnext, hstate⟩ := step_of_error loaded going h
    obtain ⟨hclock, hdelay, hsound⟩ := m.serviceTimers_spec now
    have hcpu := m.cpu_serviceTimers now
    refine ⟨_, _, ?_, hdelay, hsound, ?_⟩
    · rw [hstate, ← hclock, ← hcpu]
      rfl
    · rw [hstate, (Cpu.cases_of_next_error hnext).1]
      show (m.serviceTimers now).cpu.pc = m.cpu.pc
      rw [hcpu]

/-- A return without a call has no effect, and the step at which it is reached, at which the timers
count down, leaves the delay timer at four where it was five. -/
theorem step_of_return_without_call :
    let m := (new { timerInterval := 1 } (Vector.replicate 8 0)).after
      [.load [0x60, 0x05, 0xF0, 0x15, 0x00, 0xEE], .step 0, .step 0]
    let fault : Fault := { pc := 0x204, word := some 0x00EE, error := .emptyCallStack }
    ((m.cpu.execute .returnToCaller).answer = .error .emptyCallStack ∧
      (m.cpu.execute .returnToCaller).state = m.cpu) ∧
    m.loaded = true ∧ m.fault = none ∧ (m.step 1).answer = .error fault ∧
      ∃ delay sound : UInt8,
        (m.step 1).state =
          { m with
            cpu := { m.cpu with delay := delay, sound := sound }
            clock := (m.clock.tick 1).1
            fault := some fault } ∧
        delay.toNat = 4 ∧ sound.toNat = 0 ∧ (m.step 1).state.cpu.pc = 0x204 := by
  intro m fault
  obtain ⟨hr, hl, hf, ha, hd4, hs0⟩ :
      (m.cpu.execute .returnToCaller).answer = .error .emptyCallStack ∧
      m.loaded = true ∧ m.fault = none ∧ (m.step 1).answer = .error fault ∧
      m.cpu.delay.toNat - (m.clock.tick 1).2.toNat = 4 ∧
      m.cpu.sound.toNat - (m.clock.tick 1).2.toNat = 0 := by decide +kernel
  have hstate := failure_without_effect.1 m.cpu .returnToCaller .emptyCallStack hr
  obtain ⟨delay, sound, hs, hd, hso, hpc⟩ := failure_without_effect.2 m 1 fault hl hf ha
  exact ⟨⟨hr, hstate⟩, hl, hf, ha, delay, sound, hs, hd.trans hd4, hso.trans hs0, hpc⟩

/-! ## Ever after -/

/-- A step that fails in a program that is loaded leaves its fault behind. -/
theorem fault_step_of_error {m : Machine} {now : Nat} {fault : Fault} (loaded : m.loaded = true)
    (h : (m.step now).answer = .error fault) : (m.step now).state.fault = some fault := by
  have hs := m.stepsTo_step now
  generalize m.step now = stepped at h hs ⊢
  cases hs with
  | stopped latched => cases h; exact latched
  | unloaded _ empty => rw [loaded] at empty; cases empty
  | waits => cases h
  | faults => cases h; rfl
  | executes => cases h

/-- Whatever is done to a machine, it keeps a fault that it knows. -/
theorem fault_after {m : Machine} {fault : Fault} (h : m.fault = some fault)
    (events : List Event) : (m.after events).fault = some fault := by
  refine after_induction (P := fun n => n.fault = some fault) ?_ m events h
  intro n event outcome hr hn
  cases hr with
  | steps step =>
    cases step with
    | stopped => exact hn
    | unloaded going => rw [going] at hn; cases hn
    | waits going => rw [going] at hn; cases hn
    | faults going => rw [going] at hn; cases hn
    | executes going => rw [going] at hn; cases hn
  | _ => exact hn

/-- A machine that knows a fault answers every step with it and does nothing else. -/
theorem step_of_fault {m : Machine} {fault : Fault} (h : m.fault = some fault) (now : Nat) :
    m.step now = { state := m, answer := .error fault } := by
  rw [step, h]

/-- A fault has stopped the machine before the instruction that it is about, which is still what
comes next. No register waits for a key. -/
structure StoppedBy (m : Machine) (fault : Fault) : Prop where
  /-- The machine knows the fault. -/
  latched : m.fault = some fault
  /-- A program was loaded. -/
  loaded : m.loaded = true
  /-- No register waits for a key. -/
  mode : m.cpu.mode = .running
  /-- The fault is what comes next. -/
  next : m.cpu.next = .error fault

/-- The keys and the waiting frame have no part in what stops a machine. -/
theorem StoppedBy.of_keypad_frame {m : Machine} {fault : Fault} (h : m.StoppedBy fault)
    (keypad : Keypad) (waiting : Bool) :
    StoppedBy { m with cpu := { m.cpu with keypad := keypad, frameWaiting := waiting } } fault where
  latched := h.latched
  loaded := h.loaded
  mode := h.mode
  next := by
    rw [← h.next]
    exact Cpu.next_congr rfl rfl rfl rfl

/-- Nothing that is done to a stopped machine changes more than its keys and its waiting frame. -/
theorem StoppedBy.state_eq {m : Machine} {fault : Fault} (h : m.StoppedBy fault) {event : Event}
    {outcome : Outcome Machine Reply} (hr : m.Responds event outcome) :
    ∃ keypad waiting, outcome.state =
      { m with cpu := { m.cpu with keypad := keypad, frameWaiting := waiting } } := by
  -- A program cannot be loaded, no key is handed on, and a step goes in one way only.
  have hfault : m.fault ≠ none := by rw [h.latched]; exact Option.some_ne_none fault
  cases hr with
  | refusesSecond => exact ⟨_, _, rfl⟩
  | refusesLarge => exact ⟨_, _, rfl⟩
  | loads empty => rw [h.loaded] at empty; cases empty
  | refusesPress => exact ⟨_, _, rfl⟩
  | holds => exact ⟨_, _, rfl⟩
  | delivers _ _ mode => rw [h.mode] at mode; cases mode
  | refusesRelease => exact ⟨_, _, rfl⟩
  | releases => exact ⟨_, _, rfl⟩
  | takes => exact ⟨_, _, rfl⟩
  | steps step =>
    cases step with
    | stopped => exact ⟨_, _, rfl⟩
    | unloaded going => exact absurd going hfault
    | waits going => exact absurd going hfault
    | faults going => exact absurd going hfault
    | executes going => exact absurd going hfault

/-- A stopped machine stays stopped, and only its keys and its waiting frame change. -/
theorem StoppedBy.after {m : Machine} {fault : Fault} (h : m.StoppedBy fault)
    (events : List Event) :
    (m.after events).StoppedBy fault ∧ ∃ keypad waiting, m.after events =
      { m with cpu := { m.cpu with keypad := keypad, frameWaiting := waiting } } := by
  refine after_induction (P := fun n => n.StoppedBy fault ∧ ∃ keypad waiting, n =
    { m with cpu := { m.cpu with keypad := keypad, frameWaiting := waiting } })
    ?_ m events ⟨h, m.cpu.keypad, m.cpu.frameWaiting, rfl⟩
  rintro n event outcome hr ⟨hn, keypad, waiting, rfl⟩
  obtain ⟨keypad', waiting', ho⟩ := hn.state_eq hr
  rw [ho]
  exact ⟨hn.of_keypad_frame keypad' waiting', keypad', waiting', rfl⟩

/-- Every fault that a machine knows stopped it before the instruction that comes next. -/
def FaultsHold (m : Machine) : Prop := ∀ fault, m.fault = some fault → m.StoppedBy fault

/-- Whatever a machine does, the faults that it knows are those that stopped it. -/
theorem faultsHold_of_responds {m : Machine} {event : Event} {outcome : Outcome Machine Reply}
    (hr : m.Responds event outcome) (h : m.FaultsHold) : outcome.state.FaultsHold := by
  intro fault hf
  -- A fault that is new was what came next. A fault that was known has changed nothing since.
  have known : m.fault = some fault → outcome.state.StoppedBy fault := by
    intro hm
    obtain ⟨keypad, waiting, ho⟩ := (h fault hm).state_eq hr
    rw [ho]
    exact (h fault hm).of_keypad_frame keypad waiting
  cases hr with
  | steps step =>
    cases step with
    | @faults _ going loaded mode next =>
      obtain rfl := Option.some.inj hf
      have hcpu := m.cpu_serviceTimers
      refine ⟨rfl, loaded, ?_, (m.next_serviceTimers _).trans next⟩
      show (m.serviceTimers _).cpu.mode = .running
      rw [hcpu, ← mode]
    | _ => exact known hf
  | _ => exact known hf

/-- Whatever was done to a new machine, the faults that it knows are those that stopped it. -/
theorem faultsHold_after_new (config : Config) (entropy : Random.Key) (events : List Event) :
    ((new config entropy).after events).FaultsHold := by
  refine after_induction (fun m event outcome => faultsHold_of_responds) _ events ?_
  intro fault h
  cases h

/-- What a fault says about the machine that it stopped. -/
structure Describes (fault : Fault) (m : Machine) : Prop where
  /-- The machine stands at the address of the fault. -/
  pc : fault.pc = m.cpu.pc
  /-- The fault holds a word exactly when it can be fetched there. -/
  word : ∀ w, fault.word = some w ↔ m.cpu.memory.readWord fault.pc = .ok w
  /-- The fault holds no word exactly when none can be fetched there, and its error tells why. -/
  unfetched : ∀ e, fault.word = none ∧ fault.error = e ↔
    m.cpu.memory.readWord fault.pc = .error e
  /-- No register waits for a key. -/
  mode : m.cpu.mode = .running
  /-- A program was loaded. -/
  loaded : m.loaded = true
  /-- The error is not one that answers a request. -/
  error : fault.error ≠ .nothingLoaded ∧ fault.error ≠ .alreadyLoaded ∧
    (∀ size limit, fault.error ≠ .programTooLarge size limit) ∧
    ∀ key, fault.error ≠ .unknownKey key
  /-- To decode the word and to execute it again would fail with the error once more. -/
  again : ∀ w, fault.word = some w →
    Cpu.attempt { m.cpu with pc := fault.pc + 2 } w = .error fault.error

/-- A fault describes the machine that it stopped. -/
theorem StoppedBy.describes {m : Machine} {fault : Fault} (h : m.StoppedBy fault) :
    Describes fault m := by
  obtain ⟨hpc, hnext⟩ := Cpu.cases_of_next_error h.next
  have herror := Cpu.error_of_next h.next
  refine ⟨hpc, ?_, ?_, h.mode, h.loaded, ⟨?_, ?_, ?_, ?_⟩, ?_⟩
  -- Whether there is a word, and why not.
  · intro w
    rw [hpc]
    rcases hnext with ⟨hw, hr⟩ | ⟨word, hw, hr, -⟩ <;> rw [hw, hr] <;> simp
  · intro e
    rw [hpc]
    rcases hnext with ⟨hw, hr⟩ | ⟨word, hw, hr, -⟩ <;> rw [hw, hr] <;> simp
  -- The four errors that answer a request.
  · intro he; rw [he] at herror; cases herror
  · intro he; rw [he] at herror; cases herror
  · intro size limit he; rw [he] at herror; cases herror
  · intro key he; rw [he] at herror; cases herror
  -- To attempt the word looks at the call stack and the index register, and at no program counter.
  · intro w hw
    rcases hnext with ⟨hw', -⟩ | ⟨word, hw', -, ha⟩
    · rw [hw'] at hw; cases hw
    · rw [hw'] at hw
      cases hw
      rw [← ha]
      apply Cpu.attempt_congr <;> rfl

/-- A fault that a machine knows, whatever was done to it since it was new, describes the machine
faithfully, and it is final: whatever is done from then on, every step answers with the fault and
changes nothing, every program is refused, and nothing changes but the keys that are held and
whether a frame waits. -/
theorem fault_faithful_and_final (config : Config) (entropy : Random.Key) (events : List Event)
    (fault : Fault) (h : ((new config entropy).after events).fault = some fault) :
    let m := (new config entropy).after events
    Describes fault m ∧ ∀ later : List Event,
      (∀ now, (m.after later).step now = { state := m.after later, answer := .error fault }) ∧
        (∀ program, ((m.after later).load program).answer = .error .alreadyLoaded) ∧
        ∃ keypad waiting, m.after later =
          { m with cpu := { m.cpu with keypad := keypad, frameWaiting := waiting } } := by
  intro m
  have hm : m.StoppedBy fault := faultsHold_after_new config entropy events fault h
  refine ⟨hm.describes, fun later => ?_⟩
  obtain ⟨hlater, hstate⟩ := hm.after later
  refine ⟨fun now => ?_, fun program => ?_, hstate⟩
  · exact step_of_fault hlater.latched now
  · unfold load
    rw [hlater.loaded]
    rfl

/-- A program that draws a sprite past the end of memory is stopped there. -/
theorem fault_of_sprite_past_memory :
    let m := (new {} (Vector.replicate 8 0)).after
      [.press 3, .load [0xAF, 0xFE, 0xD0, 0x05], .step 0, .step 1]
    let fault : Fault := { pc := 0x202, word := some 0xD005, error := .outsideMemory 0x1000 }
    m.fault = some fault ∧ Describes fault m ∧ ∀ later : List Event,
      (∀ now, (m.after later).step now = { state := m.after later, answer := .error fault }) ∧
        (∀ program, ((m.after later).load program).answer = .error .alreadyLoaded) ∧
        ∃ keypad waiting, m.after later =
          { m with cpu := { m.cpu with keypad := keypad, frameWaiting := waiting } } := by
  have h : ((new {} (Vector.replicate 8 0)).after
      [.press 3, .load [0xAF, 0xFE, 0xD0, 0x05], .step 0, .step 1]).fault =
        some { pc := 0x202, word := some 0xD005, error := .outsideMemory 0x1000 } := by
    decide +kernel
  exact ⟨h, fault_faithful_and_final _ _ _ _ h⟩

end Machine

end Chip8
