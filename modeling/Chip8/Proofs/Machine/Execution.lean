import Chip8.Proofs.Cpu.Footprint
import Chip8.Proofs.Machine.Response

/-!
# Executed instructions

Statements about what a program does speak of the instructions that it executes. `upcoming` is the
instruction at which a machine stands, and `executed` the one that an event has it execute with
success. `step_cases` ties the two to the state: a step executes an instruction, with the effect of
`Cpu.execute` from behind it, or it leaves the processor alone but for the timers. `cpu_step` says
so of the processor alone. What an event does to the mode, to the screen, to the waiting frame and to
the keypad follows. `collect` lists what is seen of the events of a history, such as the instructions
that are executed in it.
-/

namespace Chip8

/-- Whether an event presses a key that exists. -/
def Event.pressesKey : Event → Bool
  | .press b => decide (b.toNat < 16)
  | _ => false

namespace Machine

/-- The instruction at the program counter, if a program is loaded and does not wait for a key. -/
def upcoming (m : Machine) : Option Instruction :=
  match m.loaded, m.cpu.mode, m.cpu.fetch with
  | true, .running, .ok (_, i) => some i
  | _, _, _ => none

/-- The instruction that an event has the machine execute: the upcoming one, if the event is a step
and succeeds. -/
def executed (m : Machine) : Event → Option Instruction
  | .step now =>
    match (m.step now).answer with
    | .ok () => m.upcoming
    | .error _ => none
  | _ => none

/-- When there is an upcoming instruction. -/
theorem upcoming_eq_some {m : Machine} {i : Instruction} :
    m.upcoming = some i ↔
      m.loaded = true ∧ m.cpu.mode = .running ∧ ∃ word, m.cpu.fetch = .ok (word, i) := by
  unfold upcoming
  cases m.loaded <;> cases m.cpu.mode <;> cases m.cpu.fetch <;> simp
  rename_i fetched
  constructor
  · intro h
    exact ⟨fetched.1, by rw [← h]⟩
  · rintro ⟨word, rfl⟩
    rfl

/-- A step executes the upcoming instruction unless the program has stopped or the instruction is
refused. -/
theorem executed_step_eq_some {m : Machine} {now : Nat} {i : Instruction} :
    m.executed (.step now) = some i ↔
      m.fault = none ∧ m.upcoming = some i ∧ m.cpu.check i = .ok () := by
  have hs := m.stepsTo_step now
  unfold executed
  dsimp only
  generalize m.step now = stepped at hs ⊢
  constructor
  · intro h
    cases hs with
    | stopped => cases h
    | unloaded => cases h
    | waits _ _ mode =>
      obtain ⟨-, running, -⟩ := upcoming_eq_some.mp h
      rw [mode] at running
      cases running
    | faults => cases h
    | executes going loaded mode next =>
      obtain ⟨hfetch, hcheck⟩ := Cpu.next_eq_ok.mp next
      cases h.symm.trans (upcoming_eq_some.mpr ⟨loaded, mode, _, hfetch⟩)
      exact ⟨going, h, hcheck⟩
  · rintro ⟨going, up, ok⟩
    obtain ⟨loaded, mode, word, hfetch⟩ := upcoming_eq_some.mp up
    have next := Cpu.next_eq_ok.mpr ⟨hfetch, ok⟩
    rw [hs.eq (.executes going loaded mode next)]
    exact up

/-- Nothing is executed while a register waits for a key. -/
theorem executed_of_awaitingKey {m : Machine} {x : Register} (h : m.cpu.mode = .awaitingKey x)
    (event : Event) : m.executed event = none := by
  cases event with
  | step now =>
    refine Option.eq_none_iff_forall_ne_some.mpr fun i hi => ?_
    obtain ⟨-, hup, -⟩ := executed_step_eq_some.mp hi
    obtain ⟨-, running, -⟩ := upcoming_eq_some.mp hup
    rw [h] at running
    cases running
  | _ => rfl

/-- What a program that runs executes in the next step is what comes next, if that can be. -/
theorem executed_step_of_running {m : Machine} (going : m.fault = none) (loaded : m.loaded = true)
    (mode : m.cpu.mode = .running) (now : Nat) :
    m.executed (.step now) = m.cpu.next.toOption.map Prod.snd := by
  refine Option.ext fun i => ?_
  rw [executed_step_eq_some, upcoming_eq_some]
  constructor
  · rintro ⟨-, ⟨-, -, word, hfetch⟩, ok⟩
    rw [Cpu.next_eq_ok.mpr ⟨hfetch, ok⟩]
    rfl
  · intro h
    cases hnext : m.cpu.next with
    | error fault =>
      rw [hnext] at h
      cases h
    | ok fetched =>
      rw [hnext] at h
      obtain rfl : fetched.2 = i := Option.some.inj h
      obtain ⟨hfetch, ok⟩ := Cpu.next_eq_ok.mp hnext
      exact ⟨going, ⟨loaded, mode, _, hfetch⟩, ok⟩

/-- A step executes the upcoming instruction and does to the processor what that does, after the
timers were serviced. Or it executes nothing, and nothing changes but the timers, the clock, and the
fault that the machine knows. -/
theorem step_cases (m : Machine) (now : Nat) :
    (∃ i, m.executed (.step now) = some i ∧ m.upcoming = some i ∧ m.cpu.check i = .ok () ∧
      (m.step now).state = { m.serviceTimers now with
        cpu := ((m.serviceTimers now).cpu.advance.execute i).state }) ∨
    m.executed (.step now) = none ∧
      ((m.step now).state = m ∨
        ∃ fault, (m.step now).state = { m.serviceTimers now with fault := fault }) := by
  have hs := m.stepsTo_step now
  dsimp only [executed]
  generalize m.step now = stepped at hs ⊢
  cases hs with
  | stopped => exact .inr ⟨rfl, .inl rfl⟩
  | unloaded => exact .inr ⟨rfl, .inl rfl⟩
  | waits _ _ mode =>
    have hnone : m.upcoming = none := by
      unfold upcoming
      rw [mode]
      cases m.loaded <;> rfl
    exact .inr ⟨hnone, .inr ⟨_, rfl⟩⟩
  | faults => exact .inr ⟨rfl, .inr ⟨_, rfl⟩⟩
  | executes _ loaded mode next =>
    obtain ⟨hfetch, hcheck⟩ := Cpu.next_eq_ok.mp next
    have hup := upcoming_eq_some.mpr ⟨loaded, mode, _, hfetch⟩
    exact .inl ⟨_, hup, hup, hcheck, rfl⟩

/-- Neither the timers nor the program counter decide whether an instruction can be executed. -/
theorem check_serviceTimers (m : Machine) (now : Nat) (i : Instruction) :
    (m.serviceTimers now).cpu.advance.check i = m.cpu.check i := by
  rw [Cpu.check_advance, cpu_serviceTimers]
  exact Cpu.check_congr rfl rfl i

/-- What a step does to the processor: the timers may count down, and then the upcoming instruction
is executed from behind itself, or nothing is. -/
theorem cpu_step (m : Machine) (now : Nat) :
    ∃ delay sound : UInt8,
      (∃ i, m.executed (.step now) = some i ∧
        { m.cpu with delay := delay, sound := sound }.advance.check i = .ok () ∧
        (m.step now).state.cpu =
          ({ m.cpu with delay := delay, sound := sound }.advance.execute i).state) ∨
      m.executed (.step now) = none ∧
        (m.step now).state.cpu = { m.cpu with delay := delay, sound := sound } := by
  have htimers := m.cpu_serviceTimers now
  obtain ⟨i, hi, -, ok, hs⟩ | ⟨hi, hs | ⟨fault, hs⟩⟩ := m.step_cases now
  · refine ⟨(m.serviceTimers now).cpu.delay, (m.serviceTimers now).cpu.sound, .inl ⟨i, hi, ?_⟩⟩
    rw [← htimers]
    exact ⟨(m.check_serviceTimers now i).trans ok, by rw [hs]⟩
  · exact ⟨m.cpu.delay, m.cpu.sound, .inr ⟨hi, by rw [hs]⟩⟩
  · exact ⟨_, _, .inr ⟨hi, by rw [hs]; exact htimers⟩⟩

/-- What a step does to the processor if it executes an instruction. -/
theorem cpu_of_executed {m : Machine} {now : Nat} {i : Instruction}
    (h : m.executed (.step now) = some i) :
    ∃ delay sound : UInt8,
      { m.cpu with delay := delay, sound := sound }.advance.check i = .ok () ∧
        (m.step now).state.cpu =
          ({ m.cpu with delay := delay, sound := sound }.advance.execute i).state := by
  obtain ⟨delay, sound, ⟨j, hj, ok, hs⟩ | ⟨hj, -⟩⟩ := m.cpu_step now
  · cases h.symm.trans hj
    exact ⟨delay, sound, ok, hs⟩
  · cases h.symm.trans hj

/-- An event that has an instruction executed keeps to the frame of the instruction. -/
theorem frame_of_executed {m : Machine} {event : Event} {i : Instruction}
    (h : m.executed event = some i) :
    ∃ delay sound : UInt8,
      { m.cpu with delay := delay, sound := sound }.advance.Frame i
        (m.respond event).state.cpu := by
  cases event with
  | step now =>
    obtain ⟨delay, sound, ok, hs⟩ := cpu_of_executed h
    refine ⟨delay, sound, ?_⟩
    show Cpu.Frame _ i (m.step now).state.cpu
    rw [hs]
    exact Cpu.frame_execute ok
  | _ => cases h

/-- An event that has nothing executed leaves alone what neither the timers nor requests change. -/
theorem untouched_respond {m : Machine} {event : Event} (h : m.executed event = none) :
    (m.respond event).state.cpu.screen = m.cpu.screen ∧
      (m.respond event).state.cpu.index = m.cpu.index ∧
      (m.respond event).state.cpu.random = m.cpu.random := by
  have hr := m.responds_respond event
  cases event with
  | step now =>
    have hstate : (m.respond (.step now)).state = (m.step now).state := rfl
    rw [hstate]
    obtain ⟨delay, sound, ⟨i, hi, -⟩ | ⟨-, hs⟩⟩ := m.cpu_step now
    · cases h.symm.trans hi
    · rw [hs]
      exact ⟨rfl, rfl, rfl⟩
  | _ =>
    generalize m.respond _ = outcome at hr ⊢
    cases hr <;> exact ⟨rfl, rfl, rfl⟩

/-! ## The mode -/

/-- A register waits for a key once that is executed, and until a key that exists is pressed. -/
theorem mode_respond (m : Machine) (event : Event) :
    (m.respond event).state.cpu.mode =
      match m.executed event with
      | some (.awaitKey x) => .awaitingKey x
      | _ => if event.pressesKey then .running else m.cpu.mode := by
  have hr := m.responds_respond event
  cases event with
  | step now =>
    show (m.step now).state.cpu.mode = _
    obtain ⟨delay, sound, ⟨i, hi, ok, hs⟩ | ⟨hi, hs⟩⟩ := m.cpu_step now
    · have hframe := Cpu.frame_execute ok
      rw [hs, hi]
      cases i with
      | awaitKey x => rfl
      | _ => exact hframe.mode rfl
    · rw [hs, hi]
      rfl
  | press b =>
    have hnone : m.executed (.press b) = none := rfl
    generalize m.respond _ = outcome at hr ⊢
    rw [hnone]
    dsimp only [Event.pressesKey]
    cases hr with
    | refusesPress unknown => simp [Nat.not_lt_of_le unknown]
    | holds key name mode => simp [mode]
    | delivers key name => simp [name]
  | _ =>
    generalize m.respond _ = outcome at hr ⊢
    cases hr <;> rfl

/-- A program goes on running after an event unless it waits for a key. -/
theorem running_respond {m : Machine} {event : Event} (h : m.cpu.mode = .running)
    (unawaited : (m.executed event).any Instruction.awaits = false) :
    (m.respond event).state.cpu.mode = .running := by
  rw [mode_respond]
  cases hi : m.executed event with
  | none => rw [h]; exact ite_self _
  | some i =>
    rw [hi, Option.any_some] at unawaited
    cases i with
    | awaitKey x => cases unawaited
    | _ => rw [h]; exact ite_self _

/-! ## Instructions that a history avoids -/

/-- In no event of a history an instruction of a kind is executed. -/
def Avoids (m : Machine) (kind : Instruction → Bool) (events : List Event) : Prop :=
  ∀ before event later, events = before ++ event :: later →
    ((m.after before).executed event).any kind = false

/-- A history without events avoids everything. -/
theorem avoids_nil {m : Machine} {kind : Instruction → Bool} : m.Avoids kind [] := by
  intro before event later heq
  exact absurd heq.symm (List.append_ne_nil_of_right_ne_nil _ (List.cons_ne_nil _ _))

/-- A history avoids a kind of instructions in its first event and in the rest. -/
theorem avoids_cons {m : Machine} {kind : Instruction → Bool} {event : Event}
    {rest : List Event} :
    m.Avoids kind (event :: rest) ↔
      (m.executed event).any kind = false ∧ (m.respond event).state.Avoids kind rest := by
  constructor
  · intro h
    refine ⟨h [] event rest rfl, fun before next later heq => ?_⟩
    rw [heq] at h
    exact h (event :: before) next later rfl
  · rintro ⟨hfirst, hrest⟩ before next later heq
    cases before with
    | nil =>
      obtain ⟨rfl, rfl⟩ := List.cons.inj heq
      exact hfirst
    | cons first before =>
      obtain ⟨rfl, rfl⟩ := List.cons.inj heq
      exact hrest before next later rfl

instance decidableAvoids (m : Machine) (kind : Instruction → Bool) :
    (events : List Event) → Decidable (m.Avoids kind events)
  | [] => isTrue avoids_nil
  | event :: rest =>
    have := decidableAvoids (m.respond event).state kind rest
    decidable_of_iff ((m.executed event).any kind = false ∧
      (m.respond event).state.Avoids kind rest) avoids_cons.symm

/-- What every event keeps that does not execute an instruction of a kind is kept by a history that
avoids the kind. -/
theorem avoids_induction {P : Machine → Prop} {kind : Instruction → Bool}
    (kept : ∀ n event, P n → (n.executed event).any kind = false → P (n.respond event).state)
    {m : Machine} {events : List Event} (h : P m) (avoided : m.Avoids kind events) :
    P (m.after events) := by
  induction events generalizing m with
  | nil => exact h
  | cons event rest ih =>
    obtain ⟨hfirst, hrest⟩ := avoids_cons.mp avoided
    exact ih (kept m event h hfirst) hrest

/-- A program runs on through a history in which it does not wait for a key again. -/
theorem running_after {m : Machine} {events : List Event} (h : m.cpu.mode = .running)
    (unawaited : m.Avoids Instruction.awaits events) : (m.after events).cpu.mode = .running :=
  avoids_induction (P := fun n => n.cpu.mode = .running) (fun _ _ => running_respond) h unawaited

/-! ## Drawing -/

/-- Whether an event has the machine draw on the screen. -/
def draws (m : Machine) (event : Event) : Bool :=
  (m.executed event).any Instruction.draws

/-- The screen is the same after an event that does not draw on it. -/
theorem screen_respond {m : Machine} {event : Event} (h : m.draws event = false) :
    (m.respond event).state.cpu.screen = m.cpu.screen := by
  cases hi : m.executed event with
  | none => exact (untouched_respond hi).1
  | some i =>
    obtain ⟨delay, sound, hframe⟩ := frame_of_executed hi
    rw [draws, hi] at h
    exact hframe.screen h

/-- A frame waits after an event that draws, and until the next frame is taken. -/
theorem frameWaiting_respond (m : Machine) (event : Event) :
    (m.respond event).state.cpu.frameWaiting =
      (m.draws event || (m.cpu.frameWaiting && decide (event ≠ .takeFrame))) := by
  have hr := m.responds_respond event
  cases event with
  | step now =>
    show (m.step now).state.cpu.frameWaiting = _
    obtain ⟨delay, sound, ⟨i, hi, ok, hs⟩ | ⟨hi, hs⟩⟩ := m.cpu_step now
    · rw [hs, (Cpu.frame_execute ok).frameWaiting, draws, hi]
      simp [Cpu.advance]
    · rw [hs, draws, hi]
      simp
  | _ =>
    generalize m.respond _ = outcome at hr ⊢
    cases hr <;> simp [draws, executed, Cpu.put]

/-! ## Keys -/

/-- The keypad after an event: a key that exists is held once it is pressed, until it is released. -/
def keypadAfter (pad : Keypad) : Event → Keypad
  | .press b => (pad.press b).toOption.getD pad
  | .release b => (pad.release b).toOption.getD pad
  | _ => pad

/-- A byte above fifteen names no key. -/
theorem ofByte_of_le {b : UInt8} (h : 16 ≤ b.toNat) : Key.ofByte b = .error (.unknownKey b) :=
  dif_neg (Nat.not_lt_of_le h)

/-- A byte up to fifteen names the key of its value. -/
theorem ofByte_of_toNat {b : UInt8} {key : Key} (h : b.toNat = key.val) :
    Key.ofByte b = .ok key := by
  have hlt : b.toNat < 16 := h ▸ key.isLt
  rw [Key.ofByte, dif_pos hlt]
  exact congrArg Except.ok (Fin.ext h)

/-- Nothing but a key that is pressed or released changes the keypad. -/
theorem keypad_respond (m : Machine) (event : Event) :
    (m.respond event).state.cpu.keypad = keypadAfter m.cpu.keypad event := by
  have hr := m.responds_respond event
  cases event with
  | step now =>
    show (m.step now).state.cpu.keypad = m.cpu.keypad
    obtain ⟨delay, sound, ⟨i, -, ok, hs⟩ | ⟨-, hs⟩⟩ := m.cpu_step now
    · rw [hs]
      exact (Cpu.frame_execute ok).keypad
    · rw [hs]
  | press b =>
    generalize m.respond _ = outcome at hr ⊢
    rw [keypadAfter, Keypad.press]
    cases hr with
    | refusesPress unknown => rw [ofByte_of_le unknown]; rfl
    | holds key name => rw [ofByte_of_toNat name]; rfl
    | delivers key name => rw [ofByte_of_toNat name]; rfl
  | release b =>
    generalize m.respond _ = outcome at hr ⊢
    rw [keypadAfter, Keypad.release]
    cases hr with
    | refusesRelease unknown => rw [ofByte_of_le unknown]; rfl
    | releases key name => rw [ofByte_of_toNat name]; rfl
  | _ =>
    generalize m.respond _ = outcome at hr ⊢
    cases hr <;> rfl

/-- If an event changes nothing but the keypad, it leaves there what it makes of it. -/
theorem state_eq_of_keypad {m : Machine} {event : Event}
    (h : ∃ keypad, (m.respond event).state =
      { m with cpu := { m.cpu with keypad := keypad } }) :
    (m.respond event).state =
      { m with cpu := { m.cpu with keypad := keypadAfter m.cpu.keypad event } } := by
  obtain ⟨keypad, hstate⟩ := h
  have hkeypad := m.keypad_respond event
  rw [hstate] at hkeypad ⊢
  rw [← hkeypad]

/-! ## What is seen of a history -/

/-- What is seen of the events of a history, in order. -/
def collect {α : Type} (m : Machine) (view : Machine → Event → Option α) : List Event → List α
  | [] => []
  | event :: rest => (view m event).toList ++ (m.respond event).state.collect view rest

/-- The instructions that are executed in a history, in order. -/
def executions (m : Machine) (events : List Event) : List Instruction :=
  m.collect executed events

end Machine

end Chip8
