import Chip8.Proofs.Machine.Execution

/-!
# Channels from the outside world

Four things outside a machine differ from run to run: the time, the keys, the seed of the random
bytes, and when frames are taken. Each of them is a `Channel`, and each reaches a few parts of the
machine only. `outside_reaches_through_channels` says that a program learns nothing of a channel but
through the instructions that read it: two runs that differ in a channel, of which the first
executes no instruction that reads it, agree on everything but those parts.

To hide a channel is to blank the parts that it reaches (`hide`), and what two histories must have
in common is what is left of their events when the channel is not looked at (`visible`). An event of
which something is left does the same where the channel is hidden (`hide_respond`), and one of which
nothing is left does nothing there (`hide_respond_of_hidden`). `hide_after` puts the two together
for whole histories, by induction on the first one. The only thing that can spoil it is a program
that waits for a key, because then a key is not confined to the keypad (`Unawaited`).
-/

namespace Chip8

/-- Something outside a machine that differs from run to run. -/
inductive Channel where
  /-- The times of the steps, and the rate of the timers. -/
  | clock
  /-- The keys that are pressed and released. -/
  | keys
  /-- The seed of the random bytes. -/
  | seed
  /-- When frames are taken. -/
  | frames

namespace Channel

/-- Whether an instruction reads a channel. Nobody reads when frames are taken. -/
def reads : Channel → Instruction → Bool
  | .clock, .readDelay _ => true
  | .keys, .skipIfHeld _ => true
  | .keys, .skipUnlessHeld _ => true
  | .keys, .awaitKey _ => true
  | .seed, .drawRandom .. => true
  | _, _ => false

/-- What is left of an event when a channel is not looked at. A step is left without its time. -/
def visible : Channel → Event → Option Event
  | .clock, .step _ => some (.step 0)
  | .keys, .press _ => none
  | .keys, .release _ => none
  | .frames, .takeFrame => none
  | _, event => some event

/-- The peripherals without what a channel reaches. -/
def hidePeripherals : Channel → Cpu.Peripherals → Cpu.Peripherals
  | .clock, p => { p with delay := 0, sound := 0 }
  | .keys, p => { p with keypad := .released }
  | .seed, p => { p with random := { key := Vector.replicate 8 0 } }
  | .frames, p => { p with frameWaiting := false }

/-- A processor without what a channel reaches. -/
def hideCpu (channel : Channel) (c : Cpu) : Cpu :=
  c.withPeripherals (channel.hidePeripherals c.peripherals)

/-- The clock of the timers, unless that is the channel. -/
def hideClock : Channel → Clock → Clock
  | .clock, _ => { interval := 0 }
  | _, c => c

/-- A machine without what a channel reaches. -/
def hide (channel : Channel) (m : Machine) : Machine :=
  { m with cpu := channel.hideCpu m.cpu, clock := channel.hideClock m.clock }

/-- A machine with the parts that a channel reaches taken from another one. -/
def received (channel : Channel) (m other : Machine) : Machine :=
  match channel with
  | .clock =>
    { m with
      cpu := { m.cpu with delay := other.cpu.delay, sound := other.cpu.sound }
      clock := other.clock }
  | .keys => { m with cpu := { m.cpu with keypad := other.cpu.keypad } }
  | .seed => { m with cpu := { m.cpu with random := other.cpu.random } }
  | .frames => { m with cpu := { m.cpu with frameWaiting := other.cpu.frameWaiting } }

variable {channel : Channel}

/-- Two machines that agree where a channel is hidden differ in what it reaches only. -/
theorem eq_received_of_hide_eq {m n : Machine} (h : channel.hide m = channel.hide n) :
    n = channel.received m n := by
  calc n
      = channel.received (channel.hide n) n := by cases channel <;> rfl
    _ = channel.received (channel.hide m) n := by rw [h]
    _ = channel.received m n := by cases channel <;> rfl

/-! ## One event -/

/-- What is hidden stays hidden. -/
theorem hide_hide (m : Machine) : channel.hide (channel.hide m) = channel.hide m := by
  cases channel <;> rfl

/-- An instruction that does not read a channel finds what it reads where the channel is hidden. -/
theorem sameFor_hidePeripherals {i : Instruction} (h : channel.reads i = false)
    (p : Cpu.Peripherals) : (channel.hidePeripherals p).SameFor p i := by
  cases channel <;> cases i <;> trivial

/-- What a channel reaches can be hidden before an instruction if it is hidden behind it. -/
theorem hidePeripherals_after (p : Cpu.Peripherals) (c : Cpu) (i : Instruction) :
    channel.hidePeripherals ((channel.hidePeripherals p).after c i) =
      channel.hidePeripherals (p.after c i) := by
  cases channel <;> cases i <;> rfl

/-- An instruction that does not read a channel does the same where the channel is hidden. -/
theorem hideCpu_execute {c : Cpu} {i : Instruction} (h : channel.reads i = false)
    (ok : c.check i = .ok ()) :
    channel.hideCpu (c.execute i).state =
      channel.hideCpu ((channel.hideCpu c).execute i).state := by
  have hsame := sameFor_hidePeripherals h c.peripherals
  unfold hideCpu
  rw [Cpu.execute_withPeripherals ok hsame, Cpu.peripherals_execute ok]
  simp only [Cpu.peripherals_withPeripherals, Cpu.withPeripherals_withPeripherals,
    hidePeripherals_after]

/-- The timers and their clock are either hidden, or they see the same time. -/
theorem hide_serviceTimers (m : Machine) {now later : Nat}
    (h : channel.visible (.step now) = some (.step later)) :
    channel.hide (m.serviceTimers now) =
      channel.hide ((channel.hide m).serviceTimers later) := by
  unfold Machine.serviceTimers
  cases channel with
  | clock =>
    -- The two looks at the clock can go in different ways, and all that they change is hidden.
    obtain ⟨clock, ticked⟩ := m.clock.tick now
    obtain ⟨clock', ticked'⟩ := (hide .clock m).clock.tick later
    cases ticked <;> cases ticked' <;> rfl
  | _ =>
    cases h
    rw [show (hide _ m).clock = m.clock from rfl]
    obtain ⟨clock, ticked⟩ := m.clock.tick now
    cases ticked <;> rfl

/-- Two machines that agree where a channel is hidden agree there after an instruction that does not
read the channel. -/
theorem hide_execute {m n : Machine} {i : Instruction} (h : channel.hide m = channel.hide n)
    (quiet : channel.reads i = false) (okm : m.cpu.check i = .ok ())
    (okn : n.cpu.check i = .ok ()) :
    channel.hide { m with cpu := (m.cpu.advance.execute i).state } =
      channel.hide { n with cpu := (n.cpu.advance.execute i).state } := by
  have hcpu : channel.hideCpu m.cpu = channel.hideCpu n.cpu := congrArg Machine.cpu h
  have hdone : channel.hideCpu (m.cpu.advance.execute i).state =
      channel.hideCpu (n.cpu.advance.execute i).state := by
    rw [← Cpu.check_advance] at okm okn
    rw [hideCpu_execute quiet okm, hideCpu_execute quiet okn]
    show channel.hideCpu ((channel.hideCpu m.cpu).advance.execute i).state =
      channel.hideCpu ((channel.hideCpu n.cpu).advance.execute i).state
    rw [hcpu]
  calc channel.hide { m with cpu := (m.cpu.advance.execute i).state }
      = { channel.hide m with cpu := channel.hideCpu (m.cpu.advance.execute i).state } := rfl
    _ = { channel.hide n with cpu := channel.hideCpu (n.cpu.advance.execute i).state } := by
      rw [h, hdone]
    _ = channel.hide { n with cpu := (n.cpu.advance.execute i).state } := rfl

/-- A step is the same where a channel is hidden that its instruction does not read. -/
theorem hide_step {m : Machine} {now later : Nat}
    (visible : channel.visible (.step now) = some (.step later))
    (quiet : (m.executed (.step now)).any channel.reads = false) :
    channel.hide (m.step now).state = channel.hide ((channel.hide m).step later).state := by
  have htimers := hide_serviceTimers m visible
  have hs := m.stepsTo_step now
  have hhidden := (channel.hide m).stepsTo_step later
  generalize m.step now = stepped at hs ⊢
  -- What a step hangs on is the same in both machines, so they go the same way.
  cases hs with
  | stopped latched =>
    rw [hhidden.eq (.stopped latched)]
    exact (hide_hide m).symm
  | unloaded going empty =>
    rw [hhidden.eq (.unloaded going empty)]
    exact (hide_hide m).symm
  | waits going loaded mode =>
    rw [hhidden.eq (.waits going loaded mode)]
    exact htimers
  | @faults fault going loaded mode next =>
    rw [hhidden.eq (.faults going loaded mode next)]
    exact congrArg (fun n : Machine => { n with fault := some fault }) htimers
  | @executes word i going loaded mode next =>
    rw [hhidden.eq (.executes going loaded mode next)]
    obtain ⟨hfetch, ok⟩ := Cpu.next_eq_ok.mp next
    have hexecuted : m.executed (.step now) = some i := Machine.executed_step_eq_some.mpr
      ⟨going, Machine.upcoming_eq_some.mpr ⟨loaded, mode, word, hfetch⟩, ok⟩
    rw [hexecuted, Option.any_some] at quiet
    refine hide_execute htimers quiet ?_ ?_
    · rw [← Cpu.check_advance, m.check_serviceTimers, ok]
    · rw [← Cpu.check_advance, (channel.hide m).check_serviceTimers]
      exact ok

/-- A request is the same where a channel is hidden. -/
theorem hide_respond_of_request (m : Machine) {event : Event} (request : ∀ now, event ≠ .step now) :
    channel.hide (m.respond event).state = channel.hide ((channel.hide m).respond event).state := by
  cases event with
  | load program =>
    have hloaded : (channel.hide m).loaded = m.loaded := rfl
    have hmemory : (channel.hide m).cpu.memory = m.cpu.memory := rfl
    simp only [Machine.respond, Outcome.mapAnswer, Machine.load, hloaded, hmemory]
    split
    · exact (hide_hide m).symm
    · split
      · exact (hide_hide m).symm
      · cases channel <;> rfl
  | press b =>
    have hmode : (channel.hide m).cpu.mode = m.cpu.mode := rfl
    simp only [Machine.respond, Outcome.mapAnswer, Machine.press]
    cases Key.ofByte b with
    | error e => exact (hide_hide m).symm
    | ok key =>
      simp only [Machine.deliver, hmode]
      cases m.cpu.mode <;> cases channel <;> rfl
  | release b =>
    simp only [Machine.respond, Outcome.mapAnswer, Machine.release]
    cases Key.ofByte b with
    | error e => exact (hide_hide m).symm
    | ok key => cases channel <;> rfl
  | takeFrame =>
    have htaken (n : Machine) : (n.respond .takeFrame).state =
        { n with cpu := { n.cpu with frameWaiting := false } } := by
      have hr := n.responds_respond .takeFrame
      generalize n.respond .takeFrame = outcome at hr ⊢
      cases hr
      rfl
    rw [htaken m, htaken (channel.hide m)]
    cases channel <;> rfl
  | step now => exact absurd rfl (request now)

/-- What is left of a step is a step. -/
theorem visible_step {now : Nat} {left : Event} (h : channel.visible (.step now) = some left) :
    ∃ later, left = .step later := by
  cases channel <;> exact ⟨_, (Option.some.inj h).symm⟩

/-- What is left of a request, if anything is, is the request. -/
theorem visible_request {event left : Event} (request : ∀ now, event ≠ .step now)
    (h : channel.visible event = some left) : left = event := by
  cases event with
  | step now => exact absurd rfl (request now)
  | _ => cases channel <;> first | exact (Option.some.inj h).symm | cases h

/-- An event is the same where a channel is hidden that no instruction reads in it. -/
theorem hide_respond {m : Machine} {event left : Event}
    (visible : channel.visible event = some left)
    (quiet : (m.executed event).any channel.reads = false) :
    channel.hide (m.respond event).state = channel.hide ((channel.hide m).respond left).state := by
  cases event with
  | step now =>
    obtain ⟨later, rfl⟩ := visible_step visible
    exact hide_step visible quiet
  | _ =>
    rw [visible_request (by rintro _ ⟨⟩) visible]
    exact hide_respond_of_request m (by rintro _ ⟨⟩)

/-- Where a channel is hidden the machine executes the same instruction. -/
theorem executed_hide {m : Machine} {event left : Event}
    (visible : channel.visible event = some left) :
    (channel.hide m).executed left = m.executed event := by
  cases event with
  | step now =>
    obtain ⟨later, rfl⟩ := visible_step visible
    -- Neither whether an instruction is executed nor which one depends on the time.
    ext i
    rw [Machine.executed_step_eq_some, Machine.executed_step_eq_some]
    exact Iff.rfl
  | _ =>
    rw [visible_request (by rintro _ ⟨⟩) visible]
    rfl

/-- The program does not wait for what the channel brings. -/
def Unawaited (channel : Channel) (m : Machine) : Prop :=
  channel = .keys → m.cpu.mode = .running

/-- An event of which nothing is left changes nothing but what the channel reaches. -/
theorem hide_respond_of_hidden {m : Machine} {event : Event} (h : channel.Unawaited m)
    (hidden : channel.visible event = none) :
    channel.hide (m.respond event).state = channel.hide m := by
  have hr := m.responds_respond event
  generalize m.respond event = outcome at hr ⊢
  cases hr with
  | refusesPress => rfl
  | holds => cases channel <;> first | rfl | cases hidden
  | delivers key name mode =>
    cases channel <;> cases hidden
    rw [h rfl] at mode
    cases mode
  | refusesRelease => rfl
  | releases => cases channel <;> first | rfl | cases hidden
  | takes => cases channel <;> first | rfl | cases hidden
  | _ => cases channel <;> cases hidden

/-- A program does not come to wait for what a channel brings in an event in which it does not read
the channel. -/
theorem unawaited_respond {m : Machine} {event : Event} (h : channel.Unawaited m)
    (quiet : (m.executed event).any channel.reads = false) :
    channel.Unawaited (m.respond event).state := by
  rintro rfl
  refine Machine.running_respond (h rfl) ?_
  -- An instruction that waits for a key reads the keys.
  cases hi : m.executed event with
  | none => rfl
  | some i =>
    rw [hi] at quiet
    cases i <;> first | rfl | cases quiet

/-- Whether a program waits for what a channel brings can be seen where the channel is hidden. -/
theorem unawaited_of_hide_eq {m n : Machine} (h : channel.hide m = channel.hide n)
    (unawaited : channel.Unawaited m) : channel.Unawaited n := by
  intro hkeys
  have hmode : (channel.hide m).cpu.mode = (channel.hide n).cpu.mode := by rw [h]
  exact hmode.symm.trans (unawaited hkeys)

/-! ## Histories -/

/-- Events of which nothing is left change nothing but what the channel reaches. -/
theorem hide_after_of_hidden {m : Machine} {events : List Event} (h : channel.Unawaited m)
    (hidden : ∀ event ∈ events, channel.visible event = none) :
    channel.hide (m.after events) = channel.hide m := by
  induction events generalizing m with
  | nil => rfl
  | cons event rest ih =>
    obtain ⟨hevent, hrest⟩ := List.forall_mem_cons.mp hidden
    have hsame := hide_respond_of_hidden h hevent
    show channel.hide ((m.respond event).state.after rest) = channel.hide m
    rw [ih (unawaited_of_hide_eq hsame.symm h) hrest, hsame]

/-- Two machines that agree where a channel is hidden agree there after histories of which the same
is left, if the first one executes no instruction that reads the channel. -/
theorem hide_after {m n : Machine} {events others : List Event}
    (h : channel.hide m = channel.hide n) (unawaited : channel.Unawaited m)
    (quiet : m.Avoids channel.reads events)
    (same : events.filterMap channel.visible = others.filterMap channel.visible) :
    channel.hide (m.after events) = channel.hide (n.after others) := by
  induction events generalizing m n others with
  | nil =>
    have hidden := List.filterMap_eq_nil_iff.mp same.symm
    rw [hide_after_of_hidden (unawaited_of_hide_eq h unawaited) hidden]
    exact h
  | cons event rest ih =>
    obtain ⟨hquiet, quiet⟩ := Machine.avoids_cons.mp quiet
    show channel.hide ((m.respond event).state.after rest) = _
    cases hv : channel.visible event with
    | none =>
      rw [List.filterMap_cons_none hv] at same
      exact ih ((hide_respond_of_hidden unawaited hv).trans h)
        (unawaited_respond unawaited hquiet) quiet same
    | some left =>
      -- The other history comes to its own form of the event after some of which nothing is left.
      -- The hypothesis on what is executed is about the first machine, and carries over.
      rw [List.filterMap_cons_some hv] at same
      obtain ⟨before, other, later, rfl, hidden, hother, hlater⟩ :=
        List.filterMap_eq_cons_iff.mp same.symm
      have hn := unawaited_of_hide_eq h unawaited
      have hbefore := hide_after_of_hidden hn hidden
      have hexecuted : (n.after before).executed other = m.executed event := by
        rw [← executed_hide hother, hbefore, ← h, executed_hide hv]
      rw [n.after_append before (other :: later)]
      show _ = channel.hide (((n.after before).respond other).state.after later)
      refine ih ?_ (unawaited_respond unawaited hquiet) quiet hlater.symm
      rw [hide_respond hv hquiet, hide_respond hother (hexecuted ▸ hquiet), hbefore, h]

end Channel

namespace Machine

/-- What two machines agree on after histories that differ in a channel only, which the first one
does not read. If it is the times of the steps, and whatever the rates of their timers are, they
agree on all but the timers and the clock. If it is the keys that are pressed and released, they
agree on all but the keypad. If it is the seed, they agree on all but the source of random bytes.
And if it is where frames are taken, which nobody reads, they agree on all but whether one waits. -/
theorem outside_reaches_through_channels (config : Config) (entropy : Random.Key)
    (events others : List Event) :
    let start := new config entropy
    let m := start.after events
    (∀ interval,
      start.Avoids Channel.clock.reads events →
      events.filterMap Channel.clock.visible = others.filterMap Channel.clock.visible →
      ∃ delay sound clock, (new { config with timerInterval := interval } entropy).after others =
        { m with cpu := { m.cpu with delay := delay, sound := sound }, clock := clock }) ∧
    (start.Avoids Channel.keys.reads events →
      events.filterMap Channel.keys.visible = others.filterMap Channel.keys.visible →
      ∃ keypad, start.after others = { m with cpu := { m.cpu with keypad := keypad } }) ∧
    (∀ seed key,
      start.Avoids Channel.seed.reads events →
      ∃ random, (new { config with seed := seed } key).after events =
        { m with cpu := { m.cpu with random := random } }) ∧
    (events.filterMap Channel.frames.visible = others.filterMap Channel.frames.visible →
      ∃ frameWaiting, start.after others =
        { m with cpu := { m.cpu with frameWaiting := frameWaiting } }) := by
  intro start m
  refine ⟨fun interval quiet same => ?_, fun quiet same => ?_, fun seed key quiet => ?_,
    fun same => ?_⟩
  · let other := new { config with timerInterval := interval } entropy
    have h : Channel.clock.hide m = Channel.clock.hide (other.after others) :=
      Channel.hide_after rfl nofun quiet same
    exact ⟨_, _, _, Channel.eq_received_of_hide_eq h⟩
  · -- A new machine does not wait for a key.
    have h : Channel.keys.hide m = Channel.keys.hide (start.after others) :=
      Channel.hide_after rfl (fun _ => rfl) quiet same
    exact ⟨_, Channel.eq_received_of_hide_eq h⟩
  · let other := new { config with seed := seed } key
    have h : Channel.seed.hide m = Channel.seed.hide (other.after events) :=
      Channel.hide_after rfl nofun quiet rfl
    exact ⟨_, Channel.eq_received_of_hide_eq h⟩
  · have quiet : start.Avoids Channel.frames.reads events := by
      intro before event later heq
      cases (start.after before).executed event <;> rfl
    have h : Channel.frames.hide m = Channel.frames.hide (start.after others) :=
      Channel.hide_after rfl nofun quiet same
    exact ⟨_, Channel.eq_received_of_hide_eq h⟩

/-- A program that sets the delay timer, draws a zero, and stands still. It is the same program at
other times, with keys pressed, with another seed, and with frames taken. -/
theorem drawing_beside_the_world :
    let program : List UInt8 := [0x6A, 0x05, 0xFA, 0x15, 0xD0, 0x05, 0x12, 0x06]
    let events : List Event := [.load program, .step 0, .step 1, .step 2]
    let late : List Event := [.load program, .step 9, .step 40, .step 30]
    let keyed : List Event := [.press 3, .load program, .step 0, .step 1, .release 99, .step 2]
    let taken : List Event := [.load program, .takeFrame, .step 0, .step 1, .step 2, .takeFrame]
    let start := new {} (Vector.replicate 8 0)
    let m := start.after events
    (start.Avoids Channel.clock.reads events ∧
      events.filterMap Channel.clock.visible = late.filterMap Channel.clock.visible ∧
      ∃ delay sound clock,
        (new { timerInterval := 5 } (Vector.replicate 8 0)).after late =
          { m with cpu := { m.cpu with delay := delay, sound := sound }, clock := clock }) ∧
    (start.Avoids Channel.keys.reads events ∧
      events.filterMap Channel.keys.visible = keyed.filterMap Channel.keys.visible ∧
      ∃ keypad, start.after keyed = { m with cpu := { m.cpu with keypad := keypad } }) ∧
    (start.Avoids Channel.seed.reads events ∧
      ∃ random, (new { seed := some 7 } (Vector.replicate 8 1)).after events =
        { m with cpu := { m.cpu with random := random } }) ∧
    (events.filterMap Channel.frames.visible = taken.filterMap Channel.frames.visible ∧
      ∃ frameWaiting, start.after taken =
        { m with cpu := { m.cpu with frameWaiting := frameWaiting } }) := by
  intro program events late keyed taken start m
  obtain ⟨hclock, -, hseed, -⟩ :=
    outside_reaches_through_channels {} (Vector.replicate 8 0) events late
  obtain ⟨-, hkeys, -⟩ := outside_reaches_through_channels {} (Vector.replicate 8 0) events keyed
  obtain ⟨-, -, -, hframes⟩ :=
    outside_reaches_through_channels {} (Vector.replicate 8 0) events taken
  obtain ⟨unclocked, unkeyed, unseeded⟩ : start.Avoids Channel.clock.reads events ∧
      start.Avoids Channel.keys.reads events ∧ start.Avoids Channel.seed.reads events := by
    decide +kernel
  exact ⟨⟨unclocked, rfl, hclock 5 unclocked rfl⟩, ⟨unkeyed, rfl, hkeys unkeyed rfl⟩,
    ⟨unseeded, hseed (some 7) (Vector.replicate 8 1) unseeded⟩, rfl, hframes rfl⟩

end Machine

end Chip8
