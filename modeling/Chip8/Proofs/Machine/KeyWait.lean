import Chip8.Proofs.Machine.AddressRange
import Chip8.Proofs.Machine.Calls
import Chip8.Proofs.Machine.Lifecycle

/-!
# Waiting for a key

`key_wait_exact` follows a program from the `awaitKey` that it executes to the key that is handed to
it. Nothing else makes a register wait, and nothing but a key that exists ends the wait, whichever
keys were held before. In between steps succeed without executing anything: only the timers and
their clock go on, keys are released, and the waiting frame may be taken. The program goes on behind
the `awaitKey`, and until it executes another one keys no longer reach its registers.

When a register waits is one equation (`mode_respond`). `Waits` is what holds then: it makes each
event that presses no key an idle one (`Waits.respond`), and by induction every history of such
events (`Waits.after`). `IdlesTo` says what idle means.
-/

namespace Chip8.Machine

/-! ## Into the wait and out of it -/

/-- A register starts to wait for a key exactly when that is executed. -/
theorem awaitingKey_respond_iff (m : Machine) (event : Event) (x : Register) :
    m.cpu.mode ≠ .awaitingKey x ∧ (m.respond event).state.cpu.mode = .awaitingKey x ↔
      m.executed event = some (.awaitKey x) := by
  have hmode := m.mode_respond event
  constructor
  · rintro ⟨hbefore, hafter⟩
    rw [hafter] at hmode
    split at hmode
    case h_1 y hi => rw [hi, Mode.awaitingKey.inj hmode]
    case h_2 =>
      -- Neither a key that is pressed nor the mode from before makes the register wait.
      split at hmode
      · cases hmode
      · exact absurd hmode.symm hbefore
  · intro hi
    rw [hi] at hmode
    refine ⟨fun hbefore => ?_, hmode⟩
    rw [executed_of_awaitingKey hbefore] at hi
    cases hi

/-- A wait ends exactly when a key that exists is pressed. -/
theorem running_respond_iff {m : Machine} {x : Register} (h : m.cpu.mode = .awaitingKey x)
    (event : Event) :
    (m.respond event).state.cpu.mode = .running ↔ event.pressesKey = true := by
  rw [mode_respond, executed_of_awaitingKey h, h]
  cases event.pressesKey <;> simp

/-! ## The wait -/

/-- A register waits for a key. A program is loaded and has not stopped. -/
structure Waits (m : Machine) (x : Register) : Prop where
  /-- Nothing has stopped the program. -/
  going : m.fault = none
  /-- A program was loaded. -/
  loaded : m.loaded = true
  /-- The register waits. -/
  mode : m.cpu.mode = .awaitingKey x

/-- Whatever was done to a new machine, if a register waits there is a program that has not
stopped. -/
theorem waits_after_new (config : Config) (entropy : Random.Key) (events : List Event)
    {x : Register} (h : ((new config entropy).after events).cpu.mode = .awaitingKey x) :
    ((new config entropy).after events).Waits x := by
  have hfaults := faultsHold_after_new config entropy events
  refine ⟨?_, ?_, h⟩
  · refine Option.eq_none_iff_forall_ne_some.mpr fun fault hfault => ?_
    have hrunning := (hfaults fault hfault).mode
    rw [h] at hrunning
    cases hrunning
  · refine Bool.of_not_eq_false fun hempty => ?_
    have hrunning := (unloaded_after_new config entropy events hempty).mode
    rw [h] at hrunning
    cases hrunning

/-- What has become of a machine that was idle: only the timers, their clock, the keys that are held
and the waiting frame can differ. -/
def IdlesTo (m : Machine) (keypad : Keypad) (frameWaiting : Bool) (later : Machine) : Prop :=
  ∃ delay sound clock, later =
    { m with
      cpu := { m.cpu with
        delay := delay
        sound := sound
        keypad := keypad
        frameWaiting := frameWaiting }
      clock := clock }

/-- Who is idle twice is idle. -/
theorem IdlesTo.trans {m mid later : Machine} {keypad keypad' : Keypad} {waiting waiting' : Bool}
    (h : m.IdlesTo keypad waiting mid) (h' : mid.IdlesTo keypad' waiting' later) :
    m.IdlesTo keypad' waiting' later := by
  obtain ⟨_, _, _, rfl⟩ := h
  obtain ⟨delay, sound, clock, rfl⟩ := h'
  exact ⟨delay, sound, clock, rfl⟩

/-- A register goes on waiting in a machine that is idle. -/
theorem Waits.of_idlesTo {m later : Machine} {x : Register} {keypad : Keypad} {waiting : Bool}
    (h : m.Waits x) (idle : m.IdlesTo keypad waiting later) : later.Waits x := by
  obtain ⟨_, _, _, rfl⟩ := idle
  exact ⟨h.going, h.loaded, h.mode⟩

/-- A step made while a register waits succeeds, and only the timers are serviced. -/
theorem Waits.step {m : Machine} {x : Register} (h : m.Waits x) (now : Nat) :
    m.step now = { state := m.serviceTimers now, answer := .ok () } :=
  (m.stepsTo_step now).eq (.waits h.going h.loaded h.mode)

/-- A machine in which a register waits is idle in every event that presses no key. -/
theorem Waits.respond {m : Machine} {x : Register} (h : m.Waits x) {event : Event}
    (unpressed : event.pressesKey = false) :
    m.IdlesTo (keypadAfter m.cpu.keypad event)
      (m.cpu.frameWaiting && decide (event ≠ .takeFrame)) (m.respond event).state := by
  have hkeypad := m.keypad_respond event
  have hwaiting := m.frameWaiting_respond event
  rw [draws, executed_of_awaitingKey h.mode, Option.any_none, Bool.false_or] at hwaiting
  -- It is known what becomes of the keypad and of the frame, so here they can be anything.
  obtain ⟨keypad, waiting, delay, sound, clock, hstate⟩ :
      ∃ keypad waiting, m.IdlesTo keypad waiting (m.respond event).state := by
    have hr := m.responds_respond event
    generalize m.respond event = outcome at hr ⊢
    cases hr with
    | loads empty => rw [h.loaded] at empty; cases empty
    | holds key name mode => rw [h.mode] at mode; cases mode
    | delivers key name => exact absurd (name ▸ key.isLt) (of_decide_eq_false unpressed)
    | @steps now _ step =>
      have hcpu := m.cpu_serviceTimers now
      rw [step.eq (.waits h.going h.loaded h.mode)]
      exact ⟨m.cpu.keypad, m.cpu.frameWaiting, _, _, (m.serviceTimers now).clock,
        by rw [← hcpu]; rfl⟩
    | _ => exact ⟨_, _, _, _, _, rfl⟩
  rw [hstate] at hkeypad hwaiting ⊢
  exact ⟨delay, sound, clock, by rw [← hkeypad, ← hwaiting]⟩

/-- A machine in which a register waits is idle as long as no key is pressed. -/
theorem Waits.after {m : Machine} {x : Register} (h : m.Waits x) {events : List Event}
    (unpressed : ∀ event ∈ events, event.pressesKey = false) :
    m.IdlesTo (events.foldl keypadAfter m.cpu.keypad)
      (m.cpu.frameWaiting && decide (Event.takeFrame ∉ events)) (m.after events) := by
  induction events generalizing m with
  | nil =>
    have hwaiting : (m.cpu.frameWaiting && decide (Event.takeFrame ∉ [])) = m.cpu.frameWaiting :=
      Bool.and_true _
    rw [hwaiting]
    exact ⟨m.cpu.delay, m.cpu.sound, m.clock, rfl⟩
  | cons event rest ih =>
    have hfirst := h.respond (unpressed event List.mem_cons_self)
    have hrest := ih (h.of_idlesTo hfirst) fun event' hmem =>
      unpressed event' (List.mem_cons_of_mem _ hmem)
    have htake : (decide (event ≠ .takeFrame) && decide (Event.takeFrame ∉ rest)) =
        decide (Event.takeFrame ∉ event :: rest) := by
      rw [← Bool.decide_and, decide_eq_decide, List.mem_cons, not_or]
      exact and_congr_left' ne_comm
    rw [keypad_respond, frameWaiting_respond, draws, executed_of_awaitingKey h.mode,
      Option.any_none, Bool.false_or, Bool.and_assoc, htake] at hrest
    exact hfirst.trans hrest

/-! ## Before the wait and after it -/

/-- An `awaitKey` makes its register wait, and does nothing else than to move on. -/
theorem step_of_awaitKey {m : Machine} {now : Nat} {x : Register}
    (h : m.executed (.step now) = some (.awaitKey x)) :
    { m with cpu := { m.cpu.advance with mode := .awaitingKey x } }.IdlesTo
      m.cpu.keypad m.cpu.frameWaiting (m.step now).state := by
  have hcpu := m.cpu_serviceTimers now
  obtain ⟨i, hi, -, -, hs⟩ | ⟨hi, -⟩ := m.step_cases now
  · cases h.symm.trans hi
    refine ⟨(m.serviceTimers now).cpu.delay, (m.serviceTimers now).cpu.sound,
      (m.serviceTimers now).clock, ?_⟩
    rw [hs, hcpu]
    rfl
  · cases h.symm.trans hi

/-- The key that is pressed while a register waits is handed to it. -/
theorem respond_of_awaitingKey {m : Machine} {x : Register} (h : m.cpu.mode = .awaitingKey x)
    {b : UInt8} {key : Key} (name : b.toNat = key.val) :
    m.respond (.press b) =
      { state := { m with
          cpu := { m.cpu.put x b with keypad := m.cpu.keypad.hold key, mode := .running } }
        answer := .done
        log := [.keyStored key x] } := by
  have hr := m.responds_respond (.press b)
  generalize m.respond (.press b) = outcome at hr ⊢
  cases hr with
  | refusesPress unknown => exact absurd (name ▸ key.isLt) (Nat.not_lt_of_le unknown)
  | holds _ _ mode => rw [h] at mode; cases mode
  | delivers key' name' mode =>
    obtain rfl : key' = key := Fin.ext (name'.symm.trans name)
    rw [h] at mode
    cases mode
    rfl

/-- A key that is pressed while a program runs is held, if it exists, and that is all. -/
theorem press_of_running {m : Machine} (h : m.cpu.mode = .running) (b : UInt8) :
    (m.respond (.press b)).state =
      { m with cpu := { m.cpu with keypad := keypadAfter m.cpu.keypad (.press b) } } := by
  refine state_eq_of_keypad ?_
  have hr := m.responds_respond (.press b)
  generalize m.respond (.press b) = outcome at hr ⊢
  cases hr with
  | delivers _ _ mode => rw [h] at mode; cases mode
  | _ => exact ⟨_, rfl⟩

/-- A machine that executes an `awaitKey` moves on, and then is idle as long as no key is pressed. -/
theorem idle_after_awaitKey {m : Machine} {now : Nat} {x : Register} {waiting : List Event}
    (h : m.executed (.step now) = some (.awaitKey x))
    (unpressed : ∀ event ∈ waiting, event.pressesKey = false) :
    { m with cpu := { m.cpu.advance with mode := .awaitingKey x } }.IdlesTo
      (waiting.foldl keypadAfter m.cpu.keypad)
      (m.cpu.frameWaiting && decide (Event.takeFrame ∉ waiting))
      (m.after (.step now :: waiting)) := by
  obtain ⟨going, hup, -⟩ := executed_step_eq_some.mp h
  obtain ⟨loaded, -, -⟩ := upcoming_eq_some.mp hup
  have hstart := step_of_awaitKey h
  -- The step itself has touched neither the keypad nor the frame.
  obtain ⟨hwaits, hkeypad, hframe⟩ : (m.step now).state.Waits x ∧
      (m.step now).state.cpu.keypad = m.cpu.keypad ∧
      (m.step now).state.cpu.frameWaiting = m.cpu.frameWaiting := by
    obtain ⟨_, _, _, hstep⟩ := hstart
    rw [hstep]
    exact ⟨⟨going, loaded, rfl⟩, rfl, rfl⟩
  have hidle := hwaits.after unpressed
  rw [hkeypad, hframe] at hidle
  exact hstart.trans hidle

/-- A key that is handed to the register that waits leaves nothing else behind of the wait. -/
theorem resumes_with_key {m waited : Machine} {x : Register} {keypad : Keypad} {waiting : Bool}
    (idle : { m with cpu := { m.cpu.advance with mode := .awaitingKey x } }.IdlesTo
      keypad waiting waited) {b : UInt8} {key : Key} (name : b.toNat = key.val) :
    { m with cpu := { m.cpu.advance.put x b with mode := .running } }.IdlesTo
      (keypad.hold key) waiting (waited.respond (.press b)).state := by
  obtain ⟨delay, sound, clock, rfl⟩ := idle
  rw [respond_of_awaitingKey rfl name]
  exact ⟨delay, sound, clock, rfl⟩

/-! ## The whole wait -/

/-- Waiting for a key, in every run. A register starts to wait exactly when that is executed, and
the wait ends exactly when a key that exists is pressed. The register then holds the key, the key is
held on the keypad, and nothing else changes. As long as no such key is pressed the machine is idle,
whatever else is done to it: each step succeeds, and nothing changes but the timers, their clock, the
keys that are released and the waiting frame that is taken. So the first key pressed behind the
`awaitKey` is the one that counts, whichever keys were held before. The program goes on with what is
behind the `awaitKey`, and until it waits again keys change the keypad only. -/
theorem key_wait_exact (config : Config) (entropy : Random.Key) (events : List Event) :
    let m := (new config entropy).after events
    (∀ event x,
      m.cpu.mode ≠ .awaitingKey x ∧ (m.respond event).state.cpu.mode = .awaitingKey x ↔
        m.executed event = some (.awaitKey x)) ∧
    (∀ x, m.cpu.mode = .awaitingKey x →
      (∀ event, (m.respond event).state.cpu.mode = .running ↔ event.pressesKey = true) ∧
      (∀ (b : UInt8) (key : Key), b.toNat = key.val →
        (m.respond (.press b)).answer = .done ∧
        (m.respond (.press b)).state =
          { m with
            cpu := { m.cpu.put x b with keypad := m.cpu.keypad.hold key, mode := .running } }) ∧
      ∀ waiting : List Event, (∀ event ∈ waiting, event.pressesKey = false) →
        m.IdlesTo (waiting.foldl keypadAfter m.cpu.keypad)
          (m.cpu.frameWaiting && decide (Event.takeFrame ∉ waiting)) (m.after waiting) ∧
        ∀ now, ((m.after waiting).step now).answer = .ok ()) ∧
    (∀ now x (waiting : List Event), m.executed (.step now) = some (.awaitKey x) →
      (∀ event ∈ waiting, event.pressesKey = false) →
      let keypad := waiting.foldl keypadAfter m.cpu.keypad
      let frameWaiting := m.cpu.frameWaiting && decide (Event.takeFrame ∉ waiting)
      let waited := m.after (.step now :: waiting)
      { m with cpu := { m.cpu.advance with mode := .awaitingKey x } }.IdlesTo
        keypad frameWaiting waited ∧
      m.cpu.advance.pc.toNat = m.cpu.pc.toNat + 2 ∧
      ∀ (b : UInt8) (key : Key), b.toNat = key.val →
        let resumed := (waited.respond (.press b)).state
        { m with cpu := { m.cpu.advance.put x b with mode := .running } }.IdlesTo
          (keypad.hold key) frameWaiting resumed ∧
        ∀ later, (resumed.step later).answer = m.cpu.advance.next.map (fun _ => ()) ∧
          resumed.executed (.step later) = m.cpu.advance.next.toOption.map Prod.snd) ∧
    (m.cpu.mode = .running → ∀ later, m.Avoids Instruction.awaits later → ∀ b,
      ((m.after later).respond (.press b)).state.cpu.registers =
        (m.after later).cpu.registers) := by
  intro m
  refine ⟨m.awaitingKey_respond_iff, fun x hmode => ?_, fun now x waiting h unpressed => ?_,
    fun h later unawaited b => ?_⟩
  · have hwaits : m.Waits x := waits_after_new config entropy events hmode
    refine ⟨running_respond_iff hmode, fun b key name => ?_, fun waiting unpressed => ?_⟩
    · rw [respond_of_awaitingKey hmode name]
      exact ⟨rfl, rfl⟩
    · have hidle := hwaits.after unpressed
      refine ⟨hidle, fun now => ?_⟩
      rw [(hwaits.of_idlesTo hidle).step]
  · have hidle := idle_after_awaitKey h unpressed
    obtain ⟨going, hup, ok⟩ := executed_step_eq_some.mp h
    obtain ⟨loaded, -, word, hfetch⟩ := upcoming_eq_some.mp hup
    have hpc : m.cpu.pc.toNat ≤ 0xFFE := Cpu.pc_le_of_next (Cpu.next_eq_ok.mpr ⟨hfetch, ok⟩)
    refine ⟨hidle, Cpu.toNat_advance hpc, fun b key name => ?_⟩
    intro resumed
    have hresumed := resumes_with_key hidle name
    -- What comes next depends on nothing that has changed since.
    obtain ⟨going', loaded', mode, hnext⟩ : resumed.fault = none ∧ resumed.loaded = true ∧
        resumed.cpu.mode = .running ∧ resumed.cpu.next = m.cpu.advance.next := by
      obtain ⟨delay, sound, clock, hstate⟩ := hresumed
      rw [show resumed = _ from hstate]
      exact ⟨going, loaded, rfl, Cpu.next_congr rfl rfl rfl rfl⟩
    have hfaults : resumed.FaultsHold := by
      intro fault hfault
      rw [going'] at hfault
      cases hfault
    refine ⟨hresumed, fun later => ⟨?_, ?_⟩⟩
    · rw [answer_step hfaults loaded' mode, hnext]
    · rw [executed_step_of_running going' loaded' mode, hnext]
  · rw [press_of_running (running_after h unawaited)]

/-- A program that waits for a key while another key is held already. A key that does not exist, the
release of the held key and a second program do not end the wait. The first key that is pressed is
stored, the program goes on behind the `awaitKey`, and the second key reaches no register. -/
theorem first_key_counts :
    let events : List Event := [.press 5, .load [0xF1, 0x0A, 0x62, 0x07, 0xF3, 0x0A]]
    let waiting : List Event :=
      [.step 1, .press 16, .release 5, .takeFrame, .load [0x00], .step 2]
    let start := new {} (Vector.replicate 8 0)
    let m := start.after events
    let waited := m.after (.step 0 :: waiting)
    let resumed := (waited.respond (.press 9)).state
    (m.cpu.keypad.holds 5 = true ∧ m.executed (.step 0) = some (.awaitKey 1) ∧
      (∀ event ∈ waiting, event.pressesKey = false)) ∧
    (waited.cpu.mode = .awaitingKey 1 ∧ (waited.step 3).answer = .ok () ∧
      (waited.respond (.press 9)).answer = .done) ∧
    (resumed.cpu.mode = .running ∧ resumed.cpu.get 1 = 9 ∧
      resumed.executed (.step 3) = some (.setByte 2 7)) ∧
    resumed.Avoids Instruction.awaits [.step 3] ∧
      ((resumed.after [.step 3]).respond (.press 6)).state.cpu.registers =
        (resumed.after [.step 3]).cpu.registers := by
  intro events waiting start m waited resumed
  obtain ⟨-, -, hwait, -⟩ := key_wait_exact {} (Vector.replicate 8 0) events
  obtain ⟨-, hmode, -, -⟩ :=
    key_wait_exact {} (Vector.replicate 8 0) (events ++ .step 0 :: waiting)
  obtain ⟨-, -, -, hpresses⟩ :=
    key_wait_exact {} (Vector.replicate 8 0) (events ++ .step 0 :: waiting ++ [.press 9])
  rw [after_append] at hmode
  rw [after_append, after_append] at hpresses
  obtain ⟨hheld, hexecuted, hunpressed, hawaits, hnext, havoids⟩ :
      m.cpu.keypad.holds 5 = true ∧ m.executed (.step 0) = some (.awaitKey 1) ∧
      (∀ event ∈ waiting, event.pressesKey = false) ∧ waited.cpu.mode = .awaitingKey 1 ∧
      m.cpu.advance.next = .ok (0x6207, .setByte 2 7) ∧
      resumed.Avoids Instruction.awaits [.step 3] := by
    decide +kernel
  obtain ⟨-, hpress, hidle⟩ := hmode 1 hawaits
  obtain ⟨-, -, hresumed⟩ := hwait 0 1 waiting hexecuted hunpressed
  obtain ⟨⟨delay, sound, clock, hstate⟩, hgoes⟩ := hresumed 9 9 rfl
  have hrunning : resumed.cpu.mode = .running := by rw [show resumed = _ from hstate]
  have hget : resumed.cpu.get 1 = 9 := by
    rw [show resumed = _ from hstate]
    exact (Cpu.get_put ..).trans (if_pos rfl)
  have hsecond := hgoes 3
  rw [hnext] at hsecond
  have hnil (n : Machine) : n.after [] = n := rfl
  have hok := (hidle [] nofun).2 3
  rw [hnil] at hok
  exact ⟨⟨hheld, hexecuted, hunpressed⟩,
    ⟨hawaits, hok, (hpress 9 9 rfl).1⟩,
    ⟨hrunning, hget, hsecond.2⟩, havoids, hpresses hrunning [.step 3] havoids 6⟩

end Chip8.Machine
