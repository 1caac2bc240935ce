import Chip8.Proofs.Machine.Execution

/-!
# Frames

Who takes every frame that waits misses nothing. `no_update_lost` says that a frame is handed out
exactly if the screen was drawn on since one was last asked for, that it is the screen of that
moment, and that the frame which was handed out last is the present screen whenever none waits.

All of it rests on two laws of single events from `Execution`: the screen is the same after an event
that does not draw on it, and an event that draws on it makes a frame wait. The first one also gives
`getD_getLast?_pictures`: the last picture that a history draws is the screen at its end.
-/

namespace Chip8

/-- The frame that a reply hands out, if it hands one out. -/
def Reply.taken? : Reply → Option Screen
  | .frame screen => screen
  | _ => none

/-- The frame that was handed out last, or the one that was held before if none was. -/
def Reply.lastTaken (held : Screen) (replies : List Reply) : Screen :=
  replies.foldl (fun held reply => reply.taken?.getD held) held

namespace Machine

/-- Somewhere in a history the screen is drawn on, and no frame is asked for after that. -/
def DrawnSinceTaken (m : Machine) (events : List Event) : Prop :=
  ∃ before event since, events = before ++ event :: since ∧
    (m.after before).draws event = true ∧ Event.takeFrame ∉ since

/-- In a history without events nothing is drawn. -/
theorem not_drawnSinceTaken_nil {m : Machine} : ¬m.DrawnSinceTaken [] := by
  rintro ⟨before, event, since, heq, -⟩
  exact absurd heq.symm (List.append_ne_nil_of_right_ne_nil _ (List.cons_ne_nil _ _))

/-- The screen is drawn on at the start of a history or in the rest of it. -/
theorem drawnSinceTaken_cons {m : Machine} {event : Event} {rest : List Event} :
    m.DrawnSinceTaken (event :: rest) ↔
      (m.draws event = true ∧ Event.takeFrame ∉ rest) ∨
        (m.respond event).state.DrawnSinceTaken rest := by
  constructor
  · rintro ⟨before, drawing, since, heq, draws, untaken⟩
    cases before with
    | nil =>
      obtain ⟨rfl, rfl⟩ := List.cons.inj heq
      exact .inl ⟨draws, untaken⟩
    | cons first before =>
      obtain ⟨rfl, rfl⟩ := List.cons.inj heq
      exact .inr ⟨before, drawing, since, rfl, draws, untaken⟩
  · rintro (⟨draws, untaken⟩ | ⟨before, drawing, since, rfl, draws, untaken⟩)
    · exact ⟨[], event, rest, rfl, draws, untaken⟩
    · exact ⟨event :: before, drawing, since, rfl, draws, untaken⟩

instance decidableDrawnSinceTaken (m : Machine) :
    (events : List Event) → Decidable (m.DrawnSinceTaken events)
  | [] => isFalse not_drawnSinceTaken_nil
  | event :: rest =>
    have := decidableDrawnSinceTaken (m.respond event).state rest
    decidable_of_iff ((m.draws event = true ∧ Event.takeFrame ∉ rest) ∨
      (m.respond event).state.DrawnSinceTaken rest) drawnSinceTaken_cons.symm

/-- When a frame waits after a history. -/
theorem frameWaiting_after {m : Machine} {events : List Event} :
    (m.after events).cpu.frameWaiting = true ↔
      m.DrawnSinceTaken events ∨ (m.cpu.frameWaiting = true ∧ Event.takeFrame ∉ events) := by
  induction events generalizing m with
  | nil =>
    simp only [not_drawnSinceTaken_nil, List.not_mem_nil, not_false_eq_true, and_true, false_or]
    rfl
  | cons event rest ih =>
    have hstep := m.frameWaiting_respond event
    have hafter : m.after (event :: rest) = (m.respond event).state.after rest := rfl
    rw [hafter, ih, drawnSinceTaken_cons, hstep]
    simp only [Bool.or_eq_true, Bool.and_eq_true, decide_eq_true_eq, List.mem_cons, not_or,
      ne_eq, eq_comm (a := Event.takeFrame)]
    grind

/-- The frame that an event hands out. -/
theorem taken?_respond (m : Machine) (event : Event) :
    (m.respond event).answer.taken? =
      if event = .takeFrame ∧ m.cpu.frameWaiting = true then some m.cpu.screen else none := by
  have hr := m.responds_respond event
  cases event with
  | takeFrame =>
    generalize m.respond .takeFrame = outcome at hr ⊢
    cases hr
    simp [Reply.taken?]
  | step now =>
    show (Reply.ofStep (m.step now).answer).taken? = _
    cases (m.step now).answer <;> simp [Reply.ofStep, Reply.taken?]
  | _ =>
    generalize m.respond _ = outcome at hr ⊢
    cases hr <;> simp [Reply.taken?]

/-- Whoever holds the screen while no frame waits holds it again whenever none waits later. -/
theorem lastTaken_of_not_waiting {m : Machine} {held : Screen} {events : List Event}
    (h : m.cpu.frameWaiting = false → held = m.cpu.screen)
    (last : (m.after events).cpu.frameWaiting = false) :
    Reply.lastTaken held (m.replay events).answer = (m.after events).cpu.screen := by
  induction events generalizing m held with
  | nil => exact h last
  | cons event rest ih =>
    show Reply.lastTaken ((m.respond event).answer.taken?.getD held)
      ((m.respond event).state.replay rest).answer = ((m.respond event).state.after rest).cpu.screen
    refine ih ?_ last
    intro hwaiting
    rw [frameWaiting_respond, Bool.or_eq_false_iff] at hwaiting
    obtain ⟨hdraws, hkept⟩ := hwaiting
    rw [screen_respond hdraws, taken?_respond]
    split
    · rfl
    · rename_i huntaken
      refine h (Bool.eq_false_iff.mpr fun hw => huntaken ⟨?_, hw⟩)
      simpa [hw] using hkept

/-! ## Pictures -/

/-- The pictures that a history draws: the screen right after each event that draws on it. -/
def pictures (m : Machine) : List Event → List Screen
  | [] => []
  | event :: rest =>
    let after := (m.respond event).state
    if m.draws event then after.cpu.screen :: after.pictures rest else after.pictures rest

/-- The last picture that a history draws is the screen after it. -/
theorem getD_getLast?_pictures (m : Machine) (events : List Event) :
    (m.pictures events).getLast?.getD m.cpu.screen = (m.after events).cpu.screen := by
  induction events generalizing m with
  | nil => rfl
  | cons event rest ih =>
    show _ = ((m.respond event).state.after rest).cpu.screen
    rw [← ih, pictures]
    split
    · rw [List.getLast?_cons, Option.getD_some]
    · rename_i hdraws
      rw [screen_respond (Bool.eq_false_iff.mpr hdraws)]

/-- The pictures that a history in two parts draws. -/
theorem pictures_append (m : Machine) (first later : List Event) :
    m.pictures (first ++ later) = m.pictures first ++ (m.after first).pictures later := by
  induction first generalizing m with
  | nil => rfl
  | cons event rest ih =>
    rw [List.cons_append, pictures, pictures, ih]
    split <;> rfl

/-! ## Whole histories -/

/-- Whatever was done to a new machine: whenever no frame waits, the frame that was handed out last
is the screen, or the screen is still blank if none was. A frame that is asked for is handed out
exactly if the screen was drawn on since one was last asked for, and it is the screen. -/
theorem no_update_lost (config : Config) (entropy : Random.Key) (events : List Event) :
    let start := new config entropy
    let m := start.after events
    (m.cpu.frameWaiting = false →
      Reply.lastTaken .blank (start.replay events).answer = m.cpu.screen) ∧
    (start.DrawnSinceTaken events → m.takeFrame.answer = some m.cpu.screen) ∧
    (¬start.DrawnSinceTaken events → m.takeFrame.answer = none) := by
  intro start m
  have hwaiting : m.cpu.frameWaiting = true ↔ start.DrawnSinceTaken events := by
    rw [frameWaiting_after]
    exact or_iff_left fun h => absurd h.1 Bool.false_ne_true
  refine ⟨lastTaken_of_not_waiting fun _ => rfl, fun hdrawn => ?_, fun hdrawn => ?_⟩
  · rw [takeFrame, if_pos (hwaiting.mpr hdrawn)]
  · rw [takeFrame, if_neg (mt hwaiting.mp hdrawn)]

/-- A program that draws a zero makes a frame wait, which is still there after a key is pressed.
When it is taken no other one waits, and it is what the screen shows. -/
theorem frame_of_zero :
    let start := new {} (Vector.replicate 8 0)
    let drawn : List Event := [.load [0xD0, 0x05, 0x12, 0x02], .step 0, .press 3]
    let taken : List Event := drawn ++ [.takeFrame, .step 1]
    (start.DrawnSinceTaken drawn ∧
      (start.after drawn).takeFrame.answer = some (start.after drawn).cpu.screen) ∧
    (¬start.DrawnSinceTaken taken ∧ (start.after taken).takeFrame.answer = none) ∧
    (start.after taken).cpu.frameWaiting = false ∧
      Reply.lastTaken .blank (start.replay taken).answer = (start.after taken).cpu.screen := by
  intro start drawn taken
  obtain ⟨-, hsome, -⟩ := no_update_lost {} (Vector.replicate 8 0) drawn
  obtain ⟨hheld, -, hnone⟩ := no_update_lost {} (Vector.replicate 8 0) taken
  obtain ⟨hdrawn, htaken, hwaiting⟩ : start.DrawnSinceTaken drawn ∧ ¬start.DrawnSinceTaken taken ∧
      (start.after taken).cpu.frameWaiting = false := by
    decide +kernel
  subst start
  exact ⟨⟨hdrawn, hsome hdrawn⟩, ⟨htaken, hnone htaken⟩, hwaiting, hheld hwaiting⟩

end Machine

end Chip8
