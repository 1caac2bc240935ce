import Chip8.Proofs.Machine.Execution
import Mathlib.Control.Monad.Basic

/-!
# The life of a machine

A machine takes one program. `one_program_a_machine` says which one, and what is there before and
after it is taken: of the programs that are offered it is the first that fits in memory. Until then
nothing that is done to the machine leaves a trace but in the keypad, so that the machine with its
program is a new machine with its program, but for the keys that are held. From then on every other
program is refused.

Whether a program was taken can be read off the offers alone (`loaded_after`). While none was taken
every event keeps the machine as it is but for the keypad (`eq_keypad_of_unloaded`), by induction
the whole history does (`after_of_unloaded`), and what is in memory is known exactly (`byteAt_load`).
-/

namespace Chip8

/-- The program that an event offers, if it offers one. -/
def Event.program? : Event → Option (List UInt8)
  | .load program => some program
  | _ => none

/-- Whether there is room for a program in memory. -/
def Memory.hasRoomFor (program : List UInt8) : Bool :=
  decide (program.length ≤ programLimit)

namespace Machine

/-! ## What is offered and what is taken -/

/-- The program that an event offers and that the machine takes. -/
def accepted? (m : Machine) : Event → Option (List UInt8)
  | .load program => (m.load program).answer.toOption.map fun _ => program
  | _ => none

/-- What a machine answers to a program. -/
theorem answer_load (m : Machine) (program : List UInt8) :
    (m.load program).answer =
      if m.loaded then .error .alreadyLoaded
      else if Memory.hasRoomFor program then .ok ()
      else .error (.programTooLarge program.length Memory.programLimit) := by
  cases hl : m.loaded with
  | true => rw [load_of_loaded program hl]; rfl
  | false =>
    cases hroom : Memory.hasRoomFor program with
    | true => rw [load_of_le hl (of_decide_eq_true hroom)]; rfl
    | false => rw [load_of_large hl (Nat.lt_of_not_le (of_decide_eq_false hroom))]; rfl

/-- A program that is refused changes nothing. -/
theorem state_of_refused {m : Machine} {program : List UInt8} {e : Error}
    (h : (m.load program).answer = .error e) : (m.load program).state = m := by
  cases hl : m.loaded with
  | true => rw [load_of_loaded program hl, refuse]
  | false =>
    by_cases hsize : program.length ≤ Memory.programLimit
    · rw [load_of_le hl hsize] at h
      cases h
    · rw [load_of_large hl (Nat.lt_of_not_le hsize), refuse]

/-- A program that is not refused is loaded. -/
theorem loaded_of_accepted {m : Machine} {program : List UInt8}
    (h : (m.load program).answer = .ok ()) : (m.load program).state.loaded = true := by
  cases hl : m.loaded with
  | true =>
    rw [load_of_loaded program hl] at h
    cases h
  | false =>
    by_cases hsize : program.length ≤ Memory.programLimit
    · rw [load_of_le hl hsize]
    · rw [load_of_large hl (Nat.lt_of_not_le hsize)] at h
      cases h

/-- A machine has its program once it was offered one that fits. -/
theorem loaded_respond (m : Machine) (event : Event) :
    (m.respond event).state.loaded = (m.loaded || event.program?.any Memory.hasRoomFor) := by
  have hr := m.responds_respond event
  generalize m.respond event = outcome at hr ⊢
  cases hr with
  | refusesSecond loaded => simp [loaded]
  | refusesLarge empty large => simp [empty, Event.program?, Memory.hasRoomFor, large]
  | loads empty fits => simp [Event.program?, Memory.hasRoomFor, fits]
  | steps step => cases step <;> simp [Event.program?, Outcome.mapAnswer, serviceTimers]
  | _ => simp [Event.program?]

/-- Whether a machine has its program after a history. -/
theorem loaded_after (m : Machine) (events : List Event) :
    (m.after events).loaded =
      (m.loaded || (events.filterMap Event.program?).any Memory.hasRoomFor) := by
  induction events generalizing m with
  | nil => exact (Bool.or_false _).symm
  | cons event rest ih =>
    show ((m.respond event).state.after rest).loaded = _
    rw [ih, loaded_respond]
    cases hp : event.program? with
    | none => rw [List.filterMap_cons_none hp, Option.any_none, Bool.or_false]
    | some program =>
      rw [List.filterMap_cons_some hp, List.any_cons, Option.any_some, Bool.or_assoc]

/-- A machine takes the first program that fits, and no other. -/
theorem collect_accepted? (m : Machine) (events : List Event) :
    m.collect accepted? events =
      if m.loaded then []
      else ((events.filterMap Event.program?).find? Memory.hasRoomFor).toList := by
  induction events generalizing m with
  | nil => cases m.loaded <;> rfl
  | cons event rest ih =>
    rw [collect, ih, loaded_respond]
    cases hp : event.program? with
    | none =>
      have haccepted : m.accepted? event = none := by
        cases event with
        | load program => cases hp
        | _ => rfl
      rw [List.filterMap_cons_none hp, haccepted, Option.any_none, Bool.or_false]
      rfl
    | some program =>
      obtain rfl : event = .load program := by
        cases event with
        | load program => cases hp; rfl
        | _ => cases hp
      rw [List.filterMap_cons_some hp, accepted?, answer_load, Option.any_some]
      -- The machine has its program already, takes this one, or goes on without.
      cases m.loaded with
      | true => rfl
      | false =>
        cases hroom : Memory.hasRoomFor program with
        | true => rw [List.find?_cons_of_pos hroom]; rfl
        | false => rw [List.find?_cons_of_neg (Bool.eq_false_iff.mp hroom)]; rfl

/-! ## Before the program -/

/-- A machine that has no program, has not stopped, waits for nothing and shows nothing. -/
structure Unloaded (m : Machine) : Prop where
  /-- There is no program. -/
  empty : m.loaded = false
  /-- Nothing has stopped the machine. -/
  going : m.fault = none
  /-- No register waits for a key. -/
  mode : m.cpu.mode = .running
  /-- No frame waits to be taken. -/
  unseen : m.cpu.frameWaiting = false

/-- A step without a program fails and changes nothing. -/
theorem Unloaded.step {m : Machine} (h : m.Unloaded) (now : Nat) :
    m.step now =
      { state := m, answer := .error { pc := m.cpu.pc, word := none, error := .nothingLoaded } } :=
  (m.stepsTo_step now).eq (.unloaded h.going h.empty)

/-- While no program is taken nothing changes but the keypad. -/
theorem eq_keypad_of_unloaded {m : Machine} (h : m.Unloaded) {event : Event}
    (large : ∀ program, event = .load program → Memory.programLimit < program.length) :
    (m.respond event).state =
      { m with cpu := { m.cpu with keypad := keypadAfter m.cpu.keypad event } } := by
  refine state_eq_of_keypad ?_
  have hr := m.responds_respond event
  generalize m.respond event = outcome at hr ⊢
  cases hr with
  | refusesSecond loaded => rw [h.empty] at loaded; cases loaded
  | loads _ fits => exact absurd (large _ rfl) (Nat.not_lt_of_le fits)
  | delivers _ _ mode => rw [h.mode] at mode; cases mode
  | takes => exact ⟨m.cpu.keypad, by rw [← h.unseen]⟩
  | steps step =>
    rw [step.eq (.unloaded h.going h.empty)]
    exact ⟨m.cpu.keypad, rfl⟩
  | _ => exact ⟨_, rfl⟩

/-- A history in which no program is taken changes nothing but the keypad. -/
theorem after_of_unloaded {m : Machine} (h : m.Unloaded) {events : List Event}
    (large : ∀ program ∈ events.filterMap Event.program?,
      Memory.programLimit < program.length) :
    m.after events =
      { m with cpu := { m.cpu with keypad := events.foldl keypadAfter m.cpu.keypad } } := by
  induction events generalizing m with
  | nil => rfl
  | cons event rest ih =>
    have hlarge : ∀ program, event = .load program → Memory.programLimit < program.length := by
      rintro program rfl
      exact large program (List.mem_filterMap.mpr ⟨_, List.mem_cons_self, rfl⟩)
    have hrest : ∀ program ∈ rest.filterMap Event.program?,
        Memory.programLimit < program.length := by
      intro program hp
      obtain ⟨event', hmem, hp⟩ := List.mem_filterMap.mp hp
      exact large program (List.mem_filterMap.mpr ⟨event', List.mem_cons_of_mem _ hmem, hp⟩)
    show (m.respond event).state.after rest = _
    rw [eq_keypad_of_unloaded h hlarge]
    exact ih ⟨h.empty, h.going, h.mode, h.unseen⟩ hrest

/-- A new machine has no program. -/
theorem unloaded_new (config : Config) (entropy : Random.Key) :
    (new config entropy).Unloaded := ⟨rfl, rfl, rfl, rfl⟩

/-- Whatever was done to a new machine, as long as there is no program it has not stopped, waits for
nothing and shows nothing. -/
theorem unloaded_after_new (config : Config) (entropy : Random.Key) (events : List Event)
    (h : ((new config entropy).after events).loaded = false) :
    ((new config entropy).after events).Unloaded := by
  have hunloaded := unloaded_new config entropy
  have hlarge : ∀ program ∈ events.filterMap Event.program?,
      Memory.programLimit < program.length := by
    rw [loaded_after, hunloaded.empty, Bool.false_or, List.any_eq_false] at h
    intro program hp
    exact Nat.lt_of_not_le fun hfits => h program hp (decide_eq_true hfits)
  rw [after_of_unloaded hunloaded hlarge]
  exact ⟨rfl, rfl, rfl, rfl⟩

/-! ## The program in memory -/

/-- What is in memory once a program is put into a new one: the font, the program, and zeros. -/
theorem byteAt_load {program : List UInt8} {k : Nat} (hk : k < 4096) :
    (Memory.initial.patch ⟨Memory.programStart.toNat, program⟩).byteAt k =
      if 0x200 ≤ k ∧ k < 0x200 + program.length then program[k - 0x200]?.getD 0
      else if k < 0x50 then Font.glyphs[k]?.getD 0 else 0 := by
  have hstart : Memory.programStart.toNat = 0x200 := rfl
  rw [Memory.byteAt_patch _ _ hk, Memory.byteAt_initial hk]
  by_cases hin : 0x200 ≤ k ∧ k < 0x200 + program.length
  · have hlt : k - 0x200 < program.length := by omega
    rw [if_pos hin, Memory.Patch.at?, hstart, if_pos hin.1, List.getElem?_eq_getElem hlt]
    rfl
  · rw [if_neg hin, Memory.Patch.at?_eq_none hin, Option.getD_none]
    by_cases hfont : k < 0x50
    · rw [if_pos hfont]
    · -- The font ends in front of this position.
      have hnone : Font.glyphs[k]? = none := List.getElem?_eq_none (Nat.le_of_not_lt hfont)
      rw [if_neg hfont, hnone, Option.getD_none]

/-! ## Whole lives -/

/-- Of the programs that are offered to a new machine it takes the first that has at most 3584
bytes, and no other. A program that is offered later is refused whatever its size is, and one that
is too large is refused for its size, which the refusal tells along with the limit. A program that
is refused changes nothing. As long as no program that fits was offered, the machine is the new one
but for the keypad: no fault is known, and the clock was not started. A step then fails at the start
of the program without a word, and changes nothing. The machine with the first program that fits is
the new one with this program, but for the keys that are held: there are the font, the program and
zeros in memory, and neither the clock nor the source of random bytes was touched. -/
theorem one_program_a_machine (config : Config) (entropy : Random.Key) (events : List Event) :
    let start := new config entropy
    let m := start.after events
    let offered := events.filterMap Event.program?
    let keypad := events.foldl keypadAfter .released
    start.collect accepted? events = (offered.find? fun p => p.length ≤ 3584).toList ∧
    (∀ program, (m.load program).answer =
      if ∃ p ∈ offered, p.length ≤ 3584 then .error .alreadyLoaded
      else if program.length ≤ 3584 then .ok ()
      else .error (.programTooLarge program.length 3584)) ∧
    (∀ program e, (m.load program).answer = .error e → (m.load program).state = m) ∧
    ((∀ p ∈ offered, 3584 < p.length) →
      m = { start with cpu := { start.cpu with keypad := keypad } } ∧
      m.fault = none ∧ m.clock = { interval := config.timerInterval, lastTick := none } ∧
      (∀ now, m.step now =
        { state := m
          answer := .error { pc := 0x200, word := none, error := .nothingLoaded } }) ∧
      ∀ program, program.length ≤ 3584 →
        let first := (m.load program).state
        let fresh := (start.load program).state
        first = { fresh with cpu := { fresh.cpu with keypad := keypad } } ∧
          (∀ k, k < 4096 → first.cpu.memory.byteAt k =
            if 0x200 ≤ k ∧ k < 0x200 + program.length then program[k - 0x200]?.getD 0
            else if k < 0x50 then Font.glyphs[k]?.getD 0 else 0) ∧
          first.clock = start.clock ∧ first.cpu.random = start.cpu.random) := by
  intro start m offered keypad
  have hlimit : Memory.programLimit = 3584 := rfl
  have hroom : ∀ p, Memory.hasRoomFor p = decide (p.length ≤ 3584) := fun _ => rfl
  refine ⟨start.collect_accepted? events, fun program => ?_, fun program e => state_of_refused,
    fun large => ?_⟩
  · have hloaded : m.loaded = decide (∃ p ∈ offered, p.length ≤ 3584) := by
      have hempty : start.loaded = false := rfl
      rw [loaded_after, hempty, Bool.false_or, Bool.eq_iff_iff, List.any_eq_true,
        decide_eq_true_eq]
      exact exists_congr fun p => and_congr_right fun _ => decide_eq_true_iff
    rw [answer_load, hloaded, hroom, hlimit]
    simp only [decide_eq_true_eq]
  · have hm : m = { start with cpu := { start.cpu with keypad := keypad } } :=
      after_of_unloaded (unloaded_new config entropy) large
    have hunloaded : m.Unloaded := by rw [hm]; exact ⟨rfl, rfl, rfl, rfl⟩
    refine ⟨hm, hunloaded.going, by rw [hm]; rfl, fun now => ?_, fun program fits => ?_⟩
    · have hpc : m.cpu.pc = 0x200 := by rw [hm]; rfl
      rw [hunloaded.step, hpc]
    · intro first fresh
      have hfresh : fresh = { start with
          cpu := { start.cpu with
            memory := start.cpu.memory.patch ⟨Memory.programStart.toNat, program⟩
            pc := Memory.programStart }
          loaded := true } := by
        show (start.load program).state = _
        rw [load_of_le (unloaded_new config entropy).empty fits]
        rfl
      have hfirst : first = { fresh with cpu := { fresh.cpu with keypad := keypad } } := by
        show (m.load program).state = _
        rw [load_of_le hunloaded.empty fits, hm, hfresh]
        rfl
      refine ⟨hfirst, fun k hk => ?_, by rw [hfirst, hfresh], by rw [hfirst, hfresh]⟩
      rw [hfirst, hfresh]
      exact byteAt_load hk

/-- A machine that is stepped too soon, and to which a program that is too large is offered while a
key is held. It refuses this program again, takes a small one as if it were new but for the key, and
then refuses even an empty one. -/
theorem small_program_after_large :
    let large : List UInt8 := List.replicate 3585 0
    let events : List Event := [.step 5, .press 3, .load large]
    let start := new {} (Vector.replicate 8 0)
    let m := start.after events
    let first := (m.load [0x60, 0x01]).state
    let fresh := (start.load [0x60, 0x01]).state
    ((∀ p ∈ events.filterMap Event.program?, 3584 < p.length) ∧
      m.step 6 =
        { state := m
          answer := .error { pc := 0x200, word := none, error := .nothingLoaded } } ∧
      first = { fresh with cpu := { fresh.cpu with keypad := Keypad.released.hold 3 } } ∧
      first.cpu.memory.byteAt 0x201 = 0x01) ∧
    ((m.load large).answer = .error (.programTooLarge 3585 3584) ∧ (m.load large).state = m) ∧
    ((start.after (events ++ [.load [0x60, 0x01]])).load []).answer = .error .alreadyLoaded := by
  intro large events start m first fresh
  obtain ⟨-, hanswer, hrefused, hunloaded⟩ :=
    one_program_a_machine {} (Vector.replicate 8 0) events
  obtain ⟨-, hlater, -⟩ :=
    one_program_a_machine {} (Vector.replicate 8 0) (events ++ [.load [0x60, 0x01]])
  have hsize : large.length = 3585 := List.length_replicate
  have hlarge : ∀ p ∈ events.filterMap Event.program?, 3584 < p.length := by
    intro p hp
    obtain rfl : p = large := List.mem_singleton.mp hp
    rw [hsize]
    decide
  have htooLarge : (m.load large).answer = .error (.programTooLarge 3585 3584) := by
    refine (hanswer large).trans ?_
    rw [hsize, if_neg, if_neg (by decide)]
    rintro ⟨p, hp, hfits⟩
    exact absurd (hlarge p hp) (Nat.not_lt_of_le hfits)
  obtain ⟨-, -, -, hstep, hload⟩ := hunloaded hlarge
  obtain ⟨hfirst, hbytes, -⟩ := hload [0x60, 0x01] (by decide)
  have hcode := hbytes 0x201 (by decide)
  rw [if_pos (by decide)] at hcode
  subst first fresh m start
  refine ⟨⟨hlarge, hstep 6, hfirst, hcode⟩,
    ⟨htooLarge, hrefused _ _ htooLarge⟩, ?_⟩
  refine (hlater []).trans (if_pos ⟨[0x60, 0x01], ?_, by decide⟩)
  exact List.mem_append_right [large] List.mem_cons_self

end Machine

end Chip8
