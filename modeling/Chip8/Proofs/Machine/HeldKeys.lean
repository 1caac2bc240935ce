import Chip8.Proofs.Machine.Successor

/-!
# Held keys

Which keys are held after any history of a machine. An event that names a key presses it or releases
it (`Event.move?`), and a key is held exactly if it was pressed the last time that it was named.
`held_keys_exact` says so of the bits of the keypad, and of the instruction that skips if a key is
held, for which a register may hold a number that names no key. Such a number is refused when it is
pressed or released, and that changes nothing, so that it does not end the wait for a key either.

What one event does to a key (`holds_respond`) gives what a history does to it by induction
(`holds_after`).
-/

namespace Chip8

/-- What an event does to a key that it names: `true` if it presses the key, and `false` if it
releases it. -/
def Event.move? (key : Key) : Event → Option Bool
  | .press b => if b.toNat = key.val then some true else none
  | .release b => if b.toNat = key.val then some false else none
  | _ => none

/-- What the last event of a history that names a key does to it, if one does. -/
def Event.lastMove? (key : Key) (events : List Event) : Option Bool :=
  (events.filterMap (Event.move? key)).getLast?

/-- Whether a byte names a key that a history has pressed and not released since. -/
def Event.NamesHeld (b : UInt8) (events : List Event) : Prop :=
  ∃ key : Key, b.toNat = key.val ∧ Event.lastMove? key events = some true

/-- A byte names a held key if it names a key that is held. -/
theorem Keypad.isHeld_iff (pad : Keypad) (b : UInt8) :
    pad.isHeld b = true ↔ ∃ key : Key, b.toNat = key.val ∧ pad.holds key = true := by
  unfold isHeld
  obtain ⟨hb, hkey⟩ | ⟨key, hb, hkey⟩ := Machine.ofByte_cases b
  · rw [hkey]
    refine iff_of_false Bool.false_ne_true ?_
    rintro ⟨key, hname, -⟩
    have hlt := key.isLt
    omega
  · rw [hkey]
    constructor
    · intro h
      exact ⟨key, hb, h⟩
    · rintro ⟨other, hname, h⟩
      obtain rfl : key = other := Fin.ext (hb.symm.trans hname)
      exact h

/-- A change of the key that a byte names, such as to hold it, does to each key what it does to the one
that is named, if it is that one. -/
theorem Keypad.holds_change (pad : Keypad) (b : UInt8) {key : Key} {change : Key → Keypad}
    {pressed : Bool}
    (h : ∀ other, (change other).holds key = if key = other then pressed else pad.holds key) :
    (((Key.ofByte b).map change).toOption.getD pad).holds key =
      (if b.toNat = key.val then some pressed else none).getD (pad.holds key) := by
  obtain ⟨hb, hname⟩ | ⟨other, hb, hname⟩ := Machine.ofByte_cases b
  · have hlt := key.isLt
    have hne : b.toNat ≠ key.val := by omega
    rw [hname, if_neg hne]
    rfl
  · rw [hname]
    show (change other).holds key = _
    rw [h other]
    by_cases heq : key = other
    · have hb' : b.toNat = key.val := by rw [heq, hb]
      rw [if_pos heq, if_pos hb', Option.getD_some]
    · have hb' : b.toNat ≠ key.val := fun hb' => heq (Fin.ext (hb'.symm.trans hb))
      rw [if_neg heq, if_neg hb', Option.getD_none]

namespace Machine

/-- A key is held after an event that presses it, and not after one that releases it. Every other
event leaves it as it was. -/
theorem holds_respond (m : Machine) (event : Event) (key : Key) :
    (m.respond event).state.cpu.keypad.holds key =
      (event.move? key).getD (m.cpu.keypad.holds key) := by
  rw [keypad_respond]
  cases event with
  | press b =>
    refine Keypad.holds_change _ b fun other => ?_
    rw [Keypad.holds_hold]
    by_cases h : key = other <;> simp [h]
  | release b =>
    refine Keypad.holds_change _ b fun other => ?_
    rw [Keypad.holds_letGo]
    by_cases h : key = other <;> simp [h]
  | _ => rfl

/-- A key is held after a history if it was pressed the last time that it was named. -/
theorem holds_after (m : Machine) (events : List Event) (key : Key) :
    (m.after events).cpu.keypad.holds key =
      (Event.lastMove? key events).getD (m.cpu.keypad.holds key) := by
  induction events generalizing m with
  | nil => rfl
  | cons event rest ih =>
    show ((m.respond event).state.after rest).cpu.keypad.holds key = _
    rw [ih, holds_respond, Event.lastMove?, Event.lastMove?]
    cases hmove : event.move? key with
    | none => rw [List.filterMap_cons_none hmove, Option.getD_none]
    | some pressed =>
      rw [List.filterMap_cons_some hmove, List.getLast?_cons, Option.getD_some, Option.getD_some]

/-- A new machine holds after a history the keys that were pressed the last time that they were
named. -/
theorem holds_after_new (config : Config) (entropy : Random.Key) (events : List Event) (key : Key) :
    ((new config entropy).after events).cpu.keypad.holds key = true ↔
      Event.lastMove? key events = some true := by
  have hreleased : (new config entropy).cpu.keypad.holds key = false := BitVec.getLsbD_zero
  rw [holds_after, hreleased]
  cases Event.lastMove? key events with
  | none => exact iff_of_false Bool.false_ne_true nofun
  | some pressed => rw [Option.getD_some, Option.some.injEq]

/-- After a history of a new machine a byte names a key that is held if it names one that was pressed
the last time that it was named. -/
theorem isHeld_after_new (config : Config) (entropy : Random.Key) (events : List Event)
    (b : UInt8) :
    ((new config entropy).after events).cpu.keypad.isHeld b = true ↔ Event.NamesHeld b events := by
  rw [Keypad.isHeld_iff, Event.NamesHeld]
  simp only [holds_after_new]

/-- Where a program goes on behind an instruction that skips if a key is held. -/
theorem pc_of_skipIfHeld {m : Machine} {now : Nat} {x : Register}
    (h : m.executed (.step now) = some (.skipIfHeld x)) :
    (m.step now).state.cpu.pc.toNat =
      m.cpu.pc.toNat + if m.cpu.keypad.isHeld (m.cpu.get x) then 4 else 2 := by
  have hleads := leadsTo_of_executed h
  generalize (m.step now).state.cpu.pc.toNat = address at hleads ⊢
  cases hleads with
  | skips _ holds =>
    have hheld : m.cpu.keypad.isHeld (m.cpu.get x) = true := holds
    rw [if_pos hheld]
  | passes _ fails =>
    have hheld : m.cpu.keypad.isHeld (m.cpu.get x) = false := fails
    rw [hheld]
    rfl

/-! ## Accepted and refused -/

/-- A byte that names a key is accepted, whether the key is pressed or released. -/
theorem answer_of_named {m : Machine} {b : UInt8} (h : b.toNat < 16) :
    (m.respond (.press b)).answer = .done ∧ (m.respond (.release b)).answer = .done := by
  constructor
  · have hr := m.responds_respond (.press b)
    generalize m.respond (.press b) = outcome at hr ⊢
    cases hr with
    | refusesPress unknown => exact absurd h (Nat.not_lt_of_le unknown)
    | holds => rfl
    | delivers => rfl
  · have hr := m.responds_respond (.release b)
    generalize m.respond (.release b) = outcome at hr ⊢
    cases hr with
    | refusesRelease unknown => exact absurd h (Nat.not_lt_of_le unknown)
    | releases => rfl

/-- A byte that names no key is refused, and nothing changes. -/
theorem respond_of_unnamed (m : Machine) {b : UInt8} (h : 16 ≤ b.toNat) :
    m.respond (.press b) = { state := m, answer := .refused (.unknownKey b) } ∧
      m.respond (.release b) = { state := m, answer := .refused (.unknownKey b) } := by
  have hunknown := ofByte_of_le h
  constructor
  · rw [respond, press, hunknown]
    rfl
  · rw [respond, release, hunknown]
    rfl

/-- Whatever was done to a new machine, a key is held exactly if the last event that named it pressed
it. Every byte up to 15 names a key and is accepted. Any other one is refused, and that changes
nothing, not even that a register waits for a key. The instruction that skips if a key is held does
so exactly if its register names a held key, and else it moves on. -/
theorem held_keys_exact (config : Config) (entropy : Random.Key) (events : List Event) :
    let m := (new config entropy).after events
    (∀ key : Key, m.cpu.keypad.bits.getLsbD key.val = true ↔
      Event.lastMove? key events = some true) ∧
    (∀ b : UInt8, b.toNat < 16 →
      (m.respond (.press b)).answer = .done ∧ (m.respond (.release b)).answer = .done) ∧
    (∀ b : UInt8, 16 ≤ b.toNat →
      m.respond (.press b) = { state := m, answer := .refused (.unknownKey b) } ∧
        m.respond (.release b) = { state := m, answer := .refused (.unknownKey b) }) ∧
    (∀ x : Register,
      (Event.NamesHeld (m.cpu.get x) events →
        m.cpu.execute (.skipIfHeld x) = Cpu.success m.cpu.advance) ∧
      (¬Event.NamesHeld (m.cpu.get x) events →
        m.cpu.execute (.skipIfHeld x) = Cpu.success m.cpu)) ∧
    ∀ (now : Nat) (x : Register), m.executed (.step now) = some (.skipIfHeld x) →
      ((m.step now).state.cpu.pc.toNat = m.cpu.pc.toNat + 4 ↔
        Event.NamesHeld (m.cpu.get x) events) ∧
      ((m.step now).state.cpu.pc.toNat = m.cpu.pc.toNat + 2 ↔
        ¬Event.NamesHeld (m.cpu.get x) events) := by
  intro m
  have hheld (x : Register) :
      m.cpu.keypad.isHeld (m.cpu.get x) = true ↔ Event.NamesHeld (m.cpu.get x) events :=
    isHeld_after_new config entropy events _
  refine ⟨holds_after_new config entropy events, fun b => answer_of_named,
    fun b => m.respond_of_unnamed, fun x => ?_, fun now x h => ?_⟩
  · have hskip : m.cpu.execute (.skipIfHeld x) =
        Cpu.success (m.cpu.skipIf (m.cpu.keypad.isHeld (m.cpu.get x))) := rfl
    rw [← hheld, hskip]
    cases m.cpu.keypad.isHeld (m.cpu.get x) with
    | true => exact ⟨fun _ => rfl, fun h => absurd rfl h⟩
    | false => exact ⟨nofun, fun _ => rfl⟩
  · rw [← hheld, pc_of_skipIfHeld h]
    cases m.cpu.keypad.isHeld (m.cpu.get x) with
    | true => exact ⟨iff_of_true rfl rfl, iff_of_false (by simp) (by simp)⟩
    | false => exact ⟨iff_of_false (by simp) Bool.false_ne_true, iff_of_true rfl (by simp)⟩

/-- A program that skips if key 5 is held, which it is: another key was released and a number that
names no key was refused in between. After its release the same instruction does not skip. A number
that names no key does not end a wait either. -/
theorem skip_over_held_key :
    let events : List Event :=
      [.load [0x60, 0x05, 0xE0, 0x9E], .press 5, .release 4, .press 0x15, .step 0]
    let start := new {} (Vector.replicate 8 0)
    let m := start.after events
    let released := start.after (events ++ [Event.release 5])
    let waiting := start.after [.load [0xF3, 0x0A], .step 0]
    (m.executed (.step 1) = some (.skipIfHeld 0) ∧ Event.NamesHeld (m.cpu.get 0) events ∧
      (m.step 1).state.cpu.pc.toNat = m.cpu.pc.toNat + 4) ∧
    (¬Event.NamesHeld (released.cpu.get 0) (events ++ [Event.release 5]) ∧
      released.cpu.execute (.skipIfHeld 0) = Cpu.success released.cpu) ∧
    ((5 : UInt8).toNat < 16 ∧ (m.respond (.release 5)).answer = .done) ∧
    16 ≤ (0x15 : UInt8).toNat ∧ waiting.cpu.mode = .awaitingKey 3 ∧
      (waiting.respond (.press 0x15)).state.cpu.mode = .awaitingKey 3 := by
  intro events start m released waiting
  obtain ⟨-, haccepted, -, -, hskip⟩ := held_keys_exact {} (Vector.replicate 8 0) events
  obtain ⟨-, -, -, hexecute, -⟩ :=
    held_keys_exact {} (Vector.replicate 8 0) (events ++ [Event.release 5])
  obtain ⟨-, -, hrefused, -⟩ :=
    held_keys_exact {} (Vector.replicate 8 0) [.load [0xF3, 0x0A], .step 0]
  -- The machines keep their names only, so that nothing of them is evaluated where they are mentioned.
  clear_value (hwaiting : waiting = _) (hreleased : released = _) (hm : m = _) (hstart : start = _)
  rw [← hstart, ← hm] at haccepted hskip
  rw [← hstart, ← hreleased] at hexecute
  rw [← hstart, ← hwaiting] at hrefused
  obtain ⟨hexecuted, hname, hname', hmode⟩ : m.executed (.step 1) = some (.skipIfHeld 0) ∧
      (m.cpu.get 0).toNat = 5 ∧ (released.cpu.get 0).toNat = 5 ∧
      waiting.cpu.mode = .awaitingKey 3 := by
    rw [hm, hreleased, hwaiting, hstart]
    decide +kernel
  have hheld : Event.NamesHeld (m.cpu.get 0) events := ⟨5, hname, rfl⟩
  have hfree : ¬Event.NamesHeld (released.cpu.get 0) (events ++ [Event.release 5]) := by
    rintro ⟨key, hkey, hlast⟩
    obtain rfl : key = 5 := Fin.ext (hkey.symm.trans hname')
    cases hlast
  have hwaits : (waiting.respond (.press 0x15)).state.cpu.mode = .awaitingKey 3 := by
    rw [(hrefused 0x15 (by decide)).1]
    exact hmode
  exact ⟨⟨hexecuted, hheld, (hskip 1 0 hexecuted).1.mpr hheld⟩, ⟨hfree, (hexecute 0).2 hfree⟩,
    ⟨by decide, (haccepted 5 (by decide)).2⟩, by decide, hmode, hwaits⟩

end Machine

end Chip8
