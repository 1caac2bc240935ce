import Chip8.Proofs.Machine.Execution
import Chip8.Proofs.Machine.Fault

/-!
# Timers in closed form

The two timers differ only in the instruction that sets them. `timers_in_closed_form` says what each
holds after any history of a new machine: the value that it was set to last, less the ticks of the
clock since then, and never below zero. A timer that was never set holds zero. Both count the same
ticks. Within a step the tick comes first, so that an instruction reads a timer that has counted
down already, and sets it to a value that this tick does not touch.

A step services the timers if a program is loaded and has not stopped, whether or not it goes on to
execute an instruction; no other event does (`services`). From what one event does to a timer
(`timer_respond`, `timer_respond_of_set`) the law for a history in which the timer is not set
follows by induction (`timer_after`), and every history ends in such a part, from the last event
that sets the timer on (`avoids_or_last`).
-/

namespace Chip8

/-- One of the two timers. -/
inductive Timer where
  /-- The timer that programs read. -/
  | delay
  /-- The timer that sounds a tone. -/
  | sound
  deriving DecidableEq

namespace Timer

/-- The instruction that sets a timer from a register. -/
def setter : Timer → Register → Instruction
  | delay, x => .setDelay x
  | sound, x => .setSound x

/-- Whether an instruction sets a timer. -/
def isSetBy : Timer → Instruction → Bool
  | delay => Instruction.setsDelay
  | sound => Instruction.setsSound

/-- An instruction that sets a timer sets it from a register. -/
theorem exists_setter {timer : Timer} {i : Instruction} (h : timer.isSetBy i = true) :
    ∃ x, i = timer.setter x := by
  cases timer <;> cases i <;> first | exact ⟨_, rfl⟩ | cases h

end Timer

/-- What a timer of a processor holds. -/
def Cpu.timer (c : Cpu) : Timer → UInt8
  | .delay => c.delay
  | .sound => c.sound

namespace Machine

/-- Whether an event has the timers serviced: it is a step, and there is a program that has not
stopped. The program may wait for a key, and it may stop in this step. -/
def services (m : Machine) : Event → Bool
  | .step _ => m.loaded && m.fault.isNone
  | _ => false

/-- Whether the clock ticks in an event. -/
def ticks (m : Machine) : Event → Bool
  | .step now => m.services (.step now) && (m.clock.tick now).2
  | _ => false

/-- How often the clock ticks in a history. -/
def tickCount (m : Machine) : List Event → Nat
  | [] => 0
  | event :: rest => (m.ticks event).toNat + (m.respond event).state.tickCount rest

/-! ## One event -/

section Event

variable {m : Machine} {event : Event} {now : Nat} {timer : Timer}

/-- The clock ticks in a step that services the timers if it ticks when it is looked at. -/
theorem ticks_of_serviced (h : m.services (.step now) = true) :
    m.ticks (.step now) = (m.clock.tick now).2 := by
  rw [ticks, h, Bool.true_and]

/-- The clock does not tick in an event that does not service the timers. -/
theorem ticks_of_unserviced (h : m.services event = false) : m.ticks event = false := by
  cases event with
  | step now => rw [ticks, h, Bool.false_and]
  | _ => rfl

/-- A step that does not service the timers changes nothing and executes nothing. -/
theorem step_of_unserviced (h : m.services (.step now) = false) :
    (m.step now).state = m ∧ m.executed (.step now) = none := by
  have hs := m.stepsTo_step now
  dsimp only [services, executed] at h ⊢
  generalize m.step now = stepped at hs ⊢
  cases hs with
  | stopped => exact ⟨rfl, rfl⟩
  | unloaded => exact ⟨rfl, rfl⟩
  | waits going loaded => rw [going, loaded] at h; cases h
  | faults going loaded => rw [going, loaded] at h; cases h
  | executes going loaded => rw [going, loaded] at h; cases h

/-- A step that services the timers then executes an instruction, or does nothing else but note that
the program has stopped. -/
theorem step_of_serviced (h : m.services (.step now) = true) :
    (∃ i, m.executed (.step now) = some i ∧
      (m.serviceTimers now).cpu.advance.check i = .ok () ∧
      (m.step now).state = { m.serviceTimers now with
        cpu := ((m.serviceTimers now).cpu.advance.execute i).state }) ∨
    m.executed (.step now) = none ∧
      ∃ fault, (m.step now).state = { m.serviceTimers now with fault := fault } := by
  have hs := m.stepsTo_step now
  obtain ⟨hloaded, hgoing⟩ := Bool.and_eq_true_iff.mp (h : (m.loaded && m.fault.isNone) = true)
  generalize hstepped : m.step now = stepped at hs ⊢
  cases hs with
  | stopped latched => rw [latched] at hgoing; cases hgoing
  | unloaded _ empty => rw [empty] at hloaded; cases hloaded
  | waits going _ mode => exact .inr ⟨executed_of_awaitingKey mode _, _, rfl⟩
  | faults going loaded mode next =>
    have hexecuted := executed_step_of_running going loaded mode now
    rw [next] at hexecuted
    exact .inr ⟨hexecuted, _, rfl⟩
  | executes going loaded mode next =>
    have hexecuted := executed_step_of_running going loaded mode now
    rw [next] at hexecuted
    obtain ⟨-, hcheck⟩ := Cpu.next_eq_ok.mp next
    exact .inl ⟨_, hexecuted, (m.check_serviceTimers now _).trans hcheck, rfl⟩

/-- An event that does not service the timers changes neither a timer nor the clock. -/
theorem timers_of_unserviced (h : m.services event = false) :
    (∀ timer, (m.respond event).state.cpu.timer timer = m.cpu.timer timer) ∧
      (m.respond event).state.clock = m.clock := by
  have hr := m.responds_respond event
  cases event with
  | step now =>
    have hstate : (m.respond (.step now)).state = m := (step_of_unserviced h).1
    rw [hstate]
    exact ⟨fun _ => rfl, rfl⟩
  | _ =>
    generalize m.respond _ = outcome at hr ⊢
    cases hr <;> exact ⟨fun timer => by cases timer <;> rfl, rfl⟩

/-- A step that services the timers looks at the clock once. -/
theorem clock_of_serviced (h : m.services (.step now) = true) :
    (m.step now).state.clock = (m.clock.tick now).1 := by
  obtain ⟨hclock, -, -⟩ := m.serviceTimers_spec now
  obtain ⟨i, -, -, hs⟩ | ⟨-, fault, hs⟩ := step_of_serviced h
  · rw [hs]; exact hclock
  · rw [hs]; exact hclock

/-- Servicing the timers counts each of them down by the tick of the clock, if there is one. -/
theorem timer_serviceTimers (m : Machine) (now : Nat) (timer : Timer) :
    ((m.serviceTimers now).cpu.timer timer).toNat =
      (m.cpu.timer timer).toNat - (m.clock.tick now).2.toNat := by
  obtain ⟨-, hdelay, hsound⟩ := m.serviceTimers_spec now
  cases timer with
  | delay => exact hdelay
  | sound => exact hsound

/-- An instruction changes a timer only by setting it. -/
theorem timer_execute {c : Cpu} {i : Instruction} (ok : c.check i = .ok ())
    (h : timer.isSetBy i = false) : (c.execute i).state.timer timer = c.timer timer := by
  have hframe := Cpu.frame_execute ok
  cases timer with
  | delay => exact hframe.delay h
  | sound => exact hframe.sound h

/-- An event that does not set a timer counts it down by the tick of the clock, if there is one. -/
theorem timer_respond (h : (m.executed event).any timer.isSetBy = false) :
    ((m.respond event).state.cpu.timer timer).toNat =
      (m.cpu.timer timer).toNat - (m.ticks event).toNat := by
  cases hserviced : m.services event with
  | false =>
    rw [(timers_of_unserviced hserviced).1, ticks_of_unserviced hserviced]
    rfl
  | true =>
    cases event with
    | step now =>
      rw [ticks_of_serviced hserviced, ← timer_serviceTimers]
      show ((m.step now).state.cpu.timer timer).toNat = _
      -- The instruction comes after the tick, and it keeps what the tick left of the timer.
      obtain ⟨i, hi, ok, hs⟩ | ⟨-, fault, hs⟩ := step_of_serviced hserviced
      · rw [hi, Option.any_some] at h
        rw [hs, timer_execute ok h]
        cases timer <;> rfl
      · rw [hs]
    | _ => cases hserviced

/-- An instruction that sets a timer leaves it at the value of the register, whether or not the
clock ticks in this step. -/
theorem timer_respond_of_set {x : Register}
    (h : m.executed (.step now) = some (timer.setter x)) :
    (m.step now).state.cpu.timer timer = m.cpu.get x := by
  obtain ⟨delay, sound, -, hs⟩ := cpu_of_executed h
  rw [hs]
  cases timer <;> rfl

/-- An instruction that reads the delay timer stores what is left of it after the tick of this step,
if there is one. -/
theorem get_of_readDelay {x : Register} (h : m.executed (.step now) = some (.readDelay x)) :
    ((m.step now).state.cpu.get x).toNat =
      m.cpu.delay.toNat - (m.ticks (.step now)).toNat := by
  have hunset : (m.executed (.step now)).any Timer.delay.isSetBy = false := by rw [h]; rfl
  have hsame : (m.step now).state.cpu.get x = (m.step now).state.cpu.delay := by
    obtain ⟨delay, sound, -, hs⟩ := cpu_of_executed h
    rw [hs]
    exact (Cpu.get_put ..).trans (if_pos rfl)
  rw [hsame]
  exact timer_respond hunset

end Event

/-! ## Histories -/

section History

variable {timer : Timer}

/-- A timer that is not set in a history has counted down by the ticks of the clock in it. -/
theorem timer_after {m : Machine} {events : List Event} (h : m.Avoids timer.isSetBy events) :
    ((m.after events).cpu.timer timer).toNat =
      (m.cpu.timer timer).toNat - m.tickCount events := by
  induction events generalizing m with
  | nil => rfl
  | cons event rest ih =>
    obtain ⟨hfirst, hrest⟩ := avoids_cons.mp h
    calc ((m.after (event :: rest)).cpu.timer timer).toNat
        = ((m.respond event).state.cpu.timer timer).toNat -
            (m.respond event).state.tickCount rest := ih hrest
      _ = (m.cpu.timer timer).toNat - (m.ticks event).toNat -
            (m.respond event).state.tickCount rest := by rw [timer_respond hfirst]
      _ = (m.cpu.timer timer).toNat - m.tickCount (event :: rest) := Nat.sub_sub ..

/-- A history avoids a kind of instructions, or there is a last event in which one is executed. -/
theorem avoids_or_last (m : Machine) (kind : Instruction → Bool) (events : List Event) :
    m.Avoids kind events ∨ ∃ before event later i, events = before ++ event :: later ∧
      (m.after before).executed event = some i ∧ kind i = true ∧
      (m.after (before ++ [event])).Avoids kind later := by
  induction events generalizing m with
  | nil => exact .inl avoids_nil
  | cons first rest ih =>
    -- The first event counts only if there is no such event behind it.
    obtain havoids | ⟨before, event, later, i, rfl, hi, hkind, hlater⟩ :=
      ih (m.respond first).state
    · cases hfirst : (m.executed first).any kind with
      | false => exact .inl (avoids_cons.mpr ⟨hfirst, havoids⟩)
      | true =>
        obtain ⟨i, hi, hkind⟩ := (Option.any_eq_true _ _).mp hfirst
        exact .inr ⟨[], first, rest, i, rfl, hi, hkind, havoids⟩
    · exact .inr ⟨first :: before, event, later, i, rfl, hi, hkind, hlater⟩

end History

/-- Whatever was done to a new machine, each timer holds the value that it was set to last, less the
ticks of the clock since then, down to zero, and zero if it was never set. A step that services the
timers looks at the clock once, and other events change neither the clock nor a timer. Within a step
the tick comes first: an instruction reads a timer that has counted down, and the value that it sets
a timer to has not. -/
theorem timers_in_closed_form :
    (∀ (config : Config) (entropy : Random.Key) (events : List Event) (timer : Timer),
      let start := new config entropy
      (start.Avoids timer.isSetBy events ∧ (start.after events).cpu.timer timer = 0) ∨
        ∃ before now x later, events = before ++ .step now :: later ∧
          (start.after before).executed (.step now) = some (timer.setter x) ∧
          (start.after (before ++ [.step now])).Avoids timer.isSetBy later ∧
          ((start.after events).cpu.timer timer).toNat =
            ((start.after before).cpu.get x).toNat -
              (start.after (before ++ [.step now])).tickCount later) ∧
    (∀ (m : Machine) (now : Nat), m.services (.step now) = true →
      (m.step now).state.clock = (m.clock.tick now).1 ∧
        m.ticks (.step now) = (m.clock.tick now).2) ∧
    (∀ (m : Machine) (event : Event), m.services event = false →
      (∀ timer, (m.respond event).state.cpu.timer timer = m.cpu.timer timer) ∧
        (m.respond event).state.clock = m.clock ∧ m.ticks event = false) ∧
    (∀ (m : Machine) (now : Nat) (x : Register), m.executed (.step now) = some (.readDelay x) →
      ((m.step now).state.cpu.get x).toNat =
        m.cpu.delay.toNat - (m.ticks (.step now)).toNat) ∧
    ∀ (m : Machine) (now : Nat) (x : Register) (timer : Timer),
      m.executed (.step now) = some (timer.setter x) →
      (m.step now).state.cpu.timer timer = m.cpu.get x := by
  refine ⟨fun config entropy events timer => ?_, fun m now h => ?_, fun m event h => ?_,
    fun m now x h => get_of_readDelay h, fun m now x timer h => timer_respond_of_set h⟩
  · intro start
    have hzero : start.cpu.timer timer = 0 := by cases timer <;> rfl
    obtain havoids | ⟨before, event, later, i, rfl, hi, hkind, hlater⟩ :=
      start.avoids_or_last timer.isSetBy events
    · have hvalue := timer_after havoids
      rw [hzero] at hvalue
      exact .inl ⟨havoids, UInt8.toNat_inj.mp (hvalue.trans (Nat.zero_sub _))⟩
    · obtain ⟨x, rfl⟩ := Timer.exists_setter hkind
      cases event with
      | step now =>
        refine .inr ⟨before, now, x, later, rfl, hi, hlater, ?_⟩
        -- What the timer held before is overwritten, so only the later ticks count.
        have hset : (start.after (before ++ [.step now])).cpu.timer timer =
            (start.after before).cpu.get x := by
          rw [after_append]
          exact timer_respond_of_set hi
        rw [← hset, ← timer_after hlater, ← after_append, List.append_assoc]
        rfl
      | _ => cases hi
  · exact ⟨clock_of_serviced h, ticks_of_serviced h⟩
  · obtain ⟨htimers, hclock⟩ := timers_of_unserviced h
    exact ⟨htimers, hclock, ticks_of_unserviced h⟩

/-- A program that sets the delay timer to 5 and reads it in the next step. The clock ticks in both
steps: the first tick does not touch the value, and the second comes before it is read. A key that
is pressed in between does not matter. -/
theorem delay_read_after_tick :
    let events : List Event :=
      [.load [0x60, 0x05, 0xF0, 0x15, 0xF1, 0x07, 0x12, 0x06], .step 0]
    let m := (new { timerInterval := 7 } (Vector.replicate 8 0)).after events
    let later := m.after [.step 8, .press 3]
    (m.services (.step 8) = true ∧ m.ticks (.step 8) = true ∧
      m.executed (.step 8) = some (Timer.delay.setter 0) ∧
      (m.step 8).state.cpu.timer .delay = 5) ∧
    ((m.after [.step 8]).services (.press 3) = false ∧ later.cpu.timer .delay = 5) ∧
    later.executed (.step 20) = some (.readDelay 1) ∧
      ((later.step 20).state.cpu.get 1).toNat = 4 := by
  intro events m later
  obtain ⟨-, hserviced, hunserviced, hread, hset⟩ := timers_in_closed_form
  obtain ⟨hservices, htick, hsetter, hvalue, hpress, hreader, hdelay, hlate⟩ :
      m.services (.step 8) = true ∧ (m.clock.tick 8).2 = true ∧
      m.executed (.step 8) = some (Timer.delay.setter 0) ∧ m.cpu.get 0 = 5 ∧
      (m.after [.step 8]).services (.press 3) = false ∧
      later.executed (.step 20) = some (.readDelay 1) ∧ later.cpu.delay = 5 ∧
      later.ticks (.step 20) = true := by
    decide +kernel
  have hafter := hset m 8 0 .delay hsetter
  rw [hvalue] at hafter
  have hpressed := (hunserviced (m.after [.step 8]) (.press 3) hpress).1 .delay
  have hstep (n : Machine) : n.after [.step 8] = (n.step 8).state := rfl
  have hlater (n : Machine) : ((n.after [.step 8]).respond (.press 3)).state =
    n.after [.step 8, .press 3] := rfl
  rw [hlater, hstep] at hpressed
  subst m later
  refine ⟨⟨hservices, (hserviced _ 8 hservices).2.trans htick, hsetter, hafter⟩,
    ⟨hpress, hpressed.trans hafter⟩, hreader, ?_⟩
  rw [hread _ 20 1 hreader, hdelay, hlate]
  rfl

end Machine

end Chip8
