import Chip8.Console.Run
import Chip8.Proofs.Machine.Fault
import Chip8.Proofs.Machine.Frames
import Chip8.Proofs.Machine.Lifecycle
import Chip8.Proofs.Screen.Renderings

/-!
# Pictures on the terminal

A session shows every picture that its program draws, once and in order
(`pictures_shown_once_in_order`). The machine keeps at most one picture waiting, so nothing may be
drawn while one waits. That is so because every turn takes the frame first and makes one step after
it.

The invariant is `Session.Follows`: the pictures that were shown, with the one that waits if one
does, are the pictures that were drawn. Taking a frame moves a picture from one side to the other
(`Follows.showFrame`), and a step adds to what waits (`Follows.step`). A session ends by the first
step that fails (`Reaches`). That step draws nothing, so that the last picture is what the machine
shows in the end (`EndedIn.screen`). Its fault is also that of all later turns
(`answer_stepOf_add`), so that any turn whose step fails tells how the session has ended
(`Reaches.ended_of_error`).
-/

namespace Chip8.Console

/-- What the loop of a session does to the machine: in every turn a frame is taken and a step is
made, at the time that the clock tells. -/
def loop (clock : Nat → Nat) (turns : Nat) : List Event :=
  (List.range turns).flatMap fun turn => [.takeFrame, .step (clock turn)]

/-- One more turn of the loop. -/
theorem loop_succ (clock : Nat → Nat) (turns : Nat) :
    loop clock (turns + 1) = loop clock turns ++ [.takeFrame] ++ [.step (clock turns)] := by
  simp [loop, List.range_succ]

/-- The step of a turn: what the machine does that has gone through the loop until then. -/
def stepOf (program : Machine) (clock : Nat → Nat) (turn : Nat) : Machine.Stepped :=
  (program.after (loop clock turn ++ [.takeFrame])).step (clock turn)

/-- The machine after a turn is that after its step. -/
theorem after_loop_succ (program : Machine) (clock : Nat → Nat) (turn : Nat) :
    program.after (loop clock (turn + 1)) = (stepOf program clock turn).state := by
  rw [loop_succ, Machine.after_append]
  rfl

/-- When the step of a turn fails, so do those of all later turns, with the same fault. -/
theorem answer_stepOf_add {program : Machine} {clock : Nat → Nat} {turn : Nat} {fault : Fault}
    (loaded : program.loaded = true) (failed : (stepOf program clock turn).answer = .error fault)
    (more : Nat) : (stepOf program clock (turn + more)).answer = .error fault := by
  induction more with
  | zero => exact failed
  | succ more ih =>
    have hloaded : (program.after (loop clock (turn + more) ++ [.takeFrame])).loaded = true := by
      rw [Machine.loaded_after, loaded, Bool.true_or]
    have hfault : (program.after (loop clock (turn + more + 1))).fault = some fault := by
      rw [after_loop_succ]
      exact Machine.fault_step_of_error hloaded ih
    rw [← Nat.add_assoc, stepOf, Machine.after_append,
      Machine.step_of_fault (Machine.fault_after hfault _)]

/-- What is written to a terminal to show pictures one after the other: what clears it, and then for
each picture what moves the cursor to the top left, and the lines of the picture. -/
def outputOf (pictures : List Screen) : String :=
  "\x1b[2J" ++ String.join (pictures.map fun picture => "\x1b[H" ++ picture.terminalText)

/-- A display writes what shows the pictures. -/
theorem outputOf_eq (pictures : List Screen) : outputOf pictures =
    Display.Terminal.clearSequence ++ String.join (pictures.map Display.Terminal.frameText) :=
  rfl

/-- One more picture is written behind the others. -/
theorem toUTF8_outputOf_append (pictures : List Screen) (screen : Screen) :
    (outputOf (pictures ++ [screen])).toUTF8 =
      (outputOf pictures).toUTF8 ++ (Display.Terminal.frameText screen).toUTF8 := by
  simp [outputOf_eq, ByteArray.append_assoc]

/-- A picture can be shown on an output that takes any number of bytes. -/
theorem render_of_unlimited {sink : Display.Sink} (room : sink.room = none) (screen : Screen) :
    Display.Terminal.render sink screen =
      ({ sink with written := sink.written ++ (Display.Terminal.frameText screen).toUTF8 },
        .ok ()) := by
  unfold Display.Terminal.render Display.Terminal.put Display.Sink.write
  rw [room]

/-- The picture that waits to be shown, if one does. -/
def waiting (m : Machine) : List Screen :=
  if m.cpu.frameWaiting then [m.cpu.screen] else []

/-- After an event before which no picture waited, what waits is what the event drew. -/
theorem waiting_respond {m : Machine} (h : m.cpu.frameWaiting = false) (event : Event) :
    waiting (m.respond event).state = m.pictures [event] := by
  rw [waiting, Machine.frameWaiting_respond, h, Bool.false_and, Bool.or_false]
  rfl

/-- To take a frame is not to draw one. -/
theorem pictures_takeFrame (m : Machine) (history : List Event) :
    m.pictures (history ++ [.takeFrame]) = m.pictures history := by
  rw [Machine.pictures_append]
  exact List.append_nil _

namespace Session

/-- A session has come to the end of a history of a program: its machine has, and the pictures that
were shown and the one that waits are those that the history drew. -/
structure Follows (s : Session) (program : Machine) (history : List Event) : Prop where
  /-- The machine has gone through the history. -/
  machine : s.machine = program.after history
  /-- The output takes any number of bytes. -/
  room : s.sink.room = none
  /-- What was shown and what waits is what was drawn. -/
  pictures : ∃ shown, s.sink.written = (outputOf shown).toUTF8 ∧
    shown ++ waiting s.machine = program.pictures history

variable {s : Session} {program : Machine} {history : List Event}

/-- When no picture waits all that were drawn have been shown. -/
theorem Follows.written (h : s.Follows program history)
    (settled : s.machine.cpu.frameWaiting = false) :
    s.sink.written = (outputOf (program.pictures history)).toUTF8 := by
  obtain ⟨shown, hwritten, hpictures⟩ := h.pictures
  rw [waiting, settled, if_neg Bool.false_ne_true, List.append_nil] at hpictures
  rw [hwritten, hpictures]

/-- The frame that waits is shown, and then none waits. -/
theorem Follows.showFrame (h : s.Follows program history) :
    ∃ shown, s.showFrame = .going shown ∧ shown.Follows program (history ++ [.takeFrame]) ∧
      shown.machine.cpu.frameWaiting = false := by
  obtain ⟨before, hwritten, hpictures⟩ := h.pictures
  have hmachine : s.machine.takeFrame.state = program.after (history ++ [.takeFrame]) := by
    rw [Machine.after_append, ← h.machine]
    rfl
  have hsame := pictures_takeFrame program history
  have hsettled : s.machine.takeFrame.state.cpu.frameWaiting = false := by
    have hw := s.machine.frameWaiting_respond .takeFrame
    rw [decide_eq_false (not_not_intro rfl), Bool.and_false] at hw
    exact hw
  have hnone : waiting s.machine.takeFrame.state = [] := by
    rw [waiting, hsettled, if_neg Bool.false_ne_true]
  unfold Session.showFrame
  cases hw : s.machine.cpu.frameWaiting with
  | true =>
    have hanswer : s.machine.takeFrame.answer = some s.machine.cpu.screen := by
      rw [Machine.takeFrame, if_pos hw]
    simp only [hanswer, render_of_unlimited h.room]
    refine ⟨_, rfl, ⟨hmachine, h.room, before ++ [s.machine.cpu.screen], ?_, ?_⟩, hsettled⟩
    · rw [toUTF8_outputOf_append, ← hwritten]
    · rw [waiting, if_pos hw] at hpictures
      rw [hnone, List.append_nil, hpictures, hsame]
  | false =>
    have hanswer : s.machine.takeFrame.answer = none := by
      rw [Machine.takeFrame, hw, if_neg Bool.false_ne_true]
    simp only [hanswer]
    refine ⟨_, rfl, ⟨hmachine, h.room, before, hwritten, ?_⟩, hsettled⟩
    rw [waiting, hw, if_neg Bool.false_ne_true] at hpictures
    rw [hnone, hpictures, hsame]

/-- A step is made, and what it draws waits to be shown. -/
theorem Follows.step (h : s.Follows program history)
    (settled : s.machine.cpu.frameWaiting = false) (now : Nat) :
    { s with machine := (s.machine.step now).state : Session }.Follows program
      (history ++ [.step now]) := by
  obtain ⟨shown, hwritten, hpictures⟩ := h.pictures
  refine ⟨?_, h.room, shown, hwritten, ?_⟩
  · rw [Machine.after_append, ← h.machine]
    rfl
  · rw [waiting, settled, if_neg Bool.false_ne_true, List.append_nil] at hpictures
    rw [Machine.pictures_append, ← hpictures, ← h.machine, ← waiting_respond settled]
    rfl

variable {clock : Nat → Nat} {turn : Nat}

/-- A session that has ended: the step of a turn failed. All that was drawn before had been shown by
then. -/
structure EndedIn (s : Session) (program : Machine) (clock : Nat → Nat) (turn : Nat)
    (fault : Fault) : Prop where
  /-- The step failed. -/
  failed : (stepOf program clock turn).answer = .error fault
  /-- It is the last thing that the machine did. -/
  machine : s.machine = (stepOf program clock turn).state
  /-- What was drawn before was shown. -/
  written : s.sink.written =
    (outputOf (program.pictures (loop clock turn ++ [.takeFrame]))).toUTF8

/-- A session makes a turn, or it ends because the step of the turn fails. -/
theorem Follows.cases_turn (h : s.Follows program (loop clock turn)) :
    (∃ after, s.turn (clock turn) = .going after ∧ (stepOf program clock turn).answer = .ok () ∧
      after.Follows program (loop clock (turn + 1))) ∨
    ∃ after fault, s.turn (clock turn) = .ended after (.faulted fault) ∧
      after.EndedIn program clock turn fault := by
  obtain ⟨shown, hshow, hfollows, hsettled⟩ := h.showFrame
  have hstep : shown.machine.step (clock turn) = stepOf program clock turn := by
    rw [hfollows.machine, stepOf]
  unfold Session.turn Session.step
  rw [hshow]
  dsimp only
  cases ha : (stepOf program clock turn).answer with
  | ok =>
    have hafter := hfollows.step hsettled (clock turn)
    rw [hstep, ← loop_succ] at hafter
    rw [hstep, ha]
    exact .inl ⟨_, rfl, rfl, hafter⟩
  | error fault =>
    rw [hstep, ha]
    exact .inr ⟨_, fault, rfl, ha, rfl, hfollows.written hsettled⟩

/-- The steps of the turns before a certain one have all succeeded. -/
def Passed (program : Machine) (clock : Nat → Nat) (turns : Nat) : Prop :=
  ∀ turn, turn < turns → (stepOf program clock turn).answer = .ok ()

/-- One more step has succeeded. -/
theorem Passed.succ (h : Passed program clock turn)
    (ok : (stepOf program clock turn).answer = .ok ()) : Passed program clock (turn + 1) := by
  intro earlier hlt
  obtain hearlier | rfl := Nat.lt_succ_iff_lt_or_eq.mp hlt
  · exact h earlier hearlier
  · exact ok

/-- Where a session of a program can be after a number of turns. -/
inductive Reaches (program : Machine) (clock : Nat → Nat) (turns : Nat) : Progress → Prop where
  /-- It goes on. -/
  | going {s : Session} (follows : s.Follows program (loop clock turns))
      (passed : Passed program clock turns) : Reaches program clock turns (.going s)
  /-- It ended in an earlier turn. -/
  | ended {s : Session} {before : Nat} {fault : Fault} (early : before < turns)
      (passed : Passed program clock before) (ended : s.EndedIn program clock before fault) :
    Reaches program clock turns (.ended s (.faulted fault))

/-- Where a session can be after some more turns. -/
theorem reaches_turns (h : s.Follows program (loop clock turn))
    (passed : Passed program clock turn) (count : Nat) :
    Reaches program clock (turn + count) (s.turns clock turn count) := by
  induction count generalizing s turn with
  | zero => exact .going h passed
  | succ count ih =>
    unfold Session.turns
    obtain ⟨after, hturn, hok, hfollows⟩ | ⟨after, fault, hturn, hended⟩ := h.cases_turn
    · rw [hturn, ← Nat.succ_add_eq_add_succ]
      exact ih hfollows (passed.succ hok)
    · rw [hturn]
      exact .ended (Nat.lt_add_of_pos_right count.succ_pos) passed hended

/-- A session has ended once the step of a turn fails, and with the fault of that step. -/
theorem Reaches.ended_of_error {turns : Nat} {progress : Progress} {fault : Fault}
    (h : Reaches program clock turns progress) (loaded : program.loaded = true)
    (early : turn < turns) (failed : (stepOf program clock turn).answer = .error fault) :
    ∃ s, progress = .ended s (.faulted fault) := by
  cases h with
  | going follows passed => cases (passed turn early).symm.trans failed
  | @ended s before fault' _ passed ended =>
    -- The step was not before the end, and there it tells the fault of the end again.
    have hle : before ≤ turn := by
      refine Nat.le_of_not_lt fun hlt => ?_
      cases (passed turn hlt).symm.trans failed
    obtain ⟨more, rfl⟩ := Nat.exists_eq_add_of_le hle
    have hsame := (answer_stepOf_add loaded ended.failed more).symm.trans failed
    exact ⟨s, by rw [Except.error.inj hsame]⟩

/-- The last picture that a session showed before it ended is what its machine shows. -/
theorem EndedIn.screen {fault : Fault} (h : s.EndedIn program clock turn fault) :
    (program.pictures (loop clock turn ++ [.takeFrame])).getLast?.getD program.cpu.screen =
      s.machine.cpu.screen := by
  have hdraws : (program.after (loop clock turn ++ [.takeFrame])).draws (.step (clock turn)) =
      false := by
    have hfailed := h.failed
    rw [stepOf] at hfailed
    rw [Machine.draws, Machine.executed, hfailed]
    rfl
  rw [Machine.getD_getLast?_pictures, h.machine]
  exact (Machine.screen_respond hdraws).symm

/-- The session of a program starts with nothing shown. -/
theorem follows_start (blank : program.cpu.frameWaiting = false) :
    ∃ s, Session.start program .unlimited = .going s ∧ s.Follows program [] := by
  refine ⟨_, rfl, rfl, rfl, [], ?_, ?_⟩
  · simp [outputOf_eq, Display.Sink.unlimited]
  · rw [waiting, blank]
    rfl

end Session

/-! ## Whole runs -/

section Runs

variable {settings : Settings} {files : Settings.Directory} {entropy : Random.Key}
  {sink : Display.Sink} {clock : Nat → Nat} {turns : Nat}

/-- A run whose program cannot be read. -/
theorem run_of_unreadable {cause : Settings.ReadError}
    (unreadable : files settings.rom = .error cause) :
    run settings files entropy sink clock turns =
      .ofFailure (.unreadableRom settings.rom cause) := by
  have hload : Session.loadRom settings files entropy =
      .error (.unreadableRom settings.rom cause) := by
    rw [Session.loadRom, unreadable]
  rw [run, hload]

/-- A run whose program cannot be loaded. -/
theorem run_of_unloadable {bytes : ByteArray} {cause : Error}
    (readable : files settings.rom = .ok bytes)
    (unloadable : ((Machine.new settings.machine entropy).load bytes.data.toList).answer =
      .error cause) :
    run settings files entropy sink clock turns =
      .ofFailure (.unloadableRom settings.rom cause) := by
  have hload : Session.loadRom settings files entropy =
      .error (.unloadableRom settings.rom cause) := by
    rw [Session.loadRom, readable]
    dsimp only
    rw [unloadable]
  rw [run, hload]

/-- A run on the console whose program is loaded is its session. -/
theorem run_of_loaded {bytes : ByteArray} {s : Session} (console : settings.console = true)
    (readable : files settings.rom = .ok bytes)
    (loads : ((Machine.new settings.machine entropy).load bytes.data.toList).answer = .ok ())
    (starts : Session.start ((Machine.new settings.machine entropy).load bytes.data.toList).state
      sink = .going s) :
    run settings files entropy sink clock turns =
      .ofProgress (Session.notices settings bytes.size) (s.turns clock 0 turns) := by
  have hload : Session.loadRom settings files entropy =
      .ok (((Machine.new settings.machine entropy).load bytes.data.toList).state, bytes.size) := by
    rw [Session.loadRom, readable]
    dsimp only
    rw [loads]
  rw [run, hload]
  dsimp only
  rw [if_pos console, starts]

end Runs

/-- A run on the console. There is a time between its steps. It writes nothing if its program cannot
be read or loaded, and it tells why. Otherwise it clears the terminal and shows the pictures that
the program draws, each once and in order: so many turns later, and after the frame of the next one
is taken, all of them were shown. The run ends with the first step that fails and for no other
reason. It tells the fault, and the last picture that it showed is the screen at its end, which is
blank if it showed none. -/
theorem pictures_shown_once_in_order (settings : Settings) (files : Settings.Directory)
    (entropy : Random.Key) (clock : Nat → Nat) (console : settings.console = true)
    (steady : 1 ≤ settings.clockHz) :
    let transcript := run settings files entropy .unlimited clock
    Clock.share? settings.clockHz = some (Session.cycle settings) ∧
    (∀ picture : Screen, picture.terminalText = String.ofList ((List.range 32).flatMap fun y =>
      ((List.range 64).map fun x => if picture.get x y then '*' else ' ') ++ ['\n'])) ∧
    (∀ cause, files settings.rom = .error cause → ∀ turns,
      (transcript turns).failure = some (.unreadableRom settings.rom cause) ∧
        (transcript turns).output = .empty) ∧
    ∀ bytes, files settings.rom = .ok bytes →
      let loading := (Machine.new settings.machine entropy).load bytes.data.toList
      let program := loading.state
      (∀ cause, loading.answer = .error cause → ∀ turns,
        (transcript turns).failure = some (.unloadableRom settings.rom cause) ∧
          (transcript turns).output = .empty) ∧
      (loading.answer = .ok () → ∃ start, Session.start program .unlimited = .going start ∧
        ∀ turns,
          ((transcript turns).failure = none →
            ∃ s shown, start.turns clock 0 turns = .going s ∧ s.showFrame = .going shown ∧
              shown.machine = program.after (loop clock turns ++ [.takeFrame]) ∧
              shown.sink.written = (outputOf (program.pictures (loop clock turns))).toUTF8) ∧
          (∀ failure, (transcript turns).failure = some failure →
            ∃ s before fault, start.turns clock 0 turns = .ended s failure ∧
              before < turns ∧ failure = .faulted fault ∧
              (∀ turn, turn < before → (stepOf program clock turn).answer = .ok ()) ∧
              (stepOf program clock before).answer = .error fault ∧
              s.machine = (stepOf program clock before).state ∧
              let pictures := program.pictures (loop clock before ++ [.takeFrame])
              (transcript turns).output = (outputOf pictures).toUTF8 ∧
              pictures.getLast?.getD .blank = s.machine.cpu.screen) ∧
          ∀ turn fault, turn < turns → (stepOf program clock turn).answer = .error fault →
            (transcript turns).failure = some (.faulted fault)) := by
  intro transcript
  refine ⟨Session.share?_clockHz steady, Screen.terminalText_eq, ?_, ?_⟩
  · intro cause unreadable turns
    have htranscript : transcript turns = _ := run_of_unreadable unreadable
    rw [htranscript]
    exact ⟨rfl, rfl⟩
  intro bytes readable loading program
  refine ⟨?_, ?_⟩
  · intro cause unloadable turns
    have htranscript : transcript turns = _ := run_of_unloadable readable unloadable
    rw [htranscript]
    exact ⟨rfl, rfl⟩
  · intro loads
    -- To load a program is not to draw, so the session starts as a new machine does.
    have undrawn : (Machine.new settings.machine entropy).draws (.load bytes.data.toList) = false :=
      rfl
    have hscreen : program.cpu.screen = .blank := Machine.screen_respond undrawn
    have hsettled : program.cpu.frameWaiting = false :=
      Machine.frameWaiting_respond _ (.load bytes.data.toList)
    have hloaded : program.loaded = true := Machine.loaded_of_accepted loads
    obtain ⟨start, starts, hfollows⟩ := Session.follows_start hsettled
    refine ⟨start, starts, fun turns => ?_⟩
    have htranscript : transcript turns = _ := run_of_loaded console readable loads starts
    have hfollows : start.Follows program (loop clock 0) := hfollows
    have hreaches := Session.reaches_turns hfollows nofun turns
    rw [htranscript]
    rw [Nat.zero_add] at hreaches
    generalize start.turns clock 0 turns = progress at hreaches
    refine ⟨fun hnone => ?_, fun failure hfailure => ?_, fun turn fault hturn failed => ?_⟩
    · cases hreaches with
      | @going s follows _ =>
        obtain ⟨shown, hshow, hfollows, hsettled⟩ := follows.showFrame
        refine ⟨s, shown, rfl, hshow, hfollows.machine, ?_⟩
        rw [hfollows.written hsettled, pictures_takeFrame]
      | ended => cases hnone
    · cases hreaches with
      | going => cases hfailure
      | @ended s before fault early passed ended =>
        obtain rfl := Option.some.inj hfailure
        refine ⟨s, before, fault, rfl, early, rfl, passed, ended.failed, ended.machine,
          ended.written, ?_⟩
        rw [← hscreen]
        exact ended.screen
    · obtain ⟨s, rfl⟩ := hreaches.ended_of_error hloaded hturn failed
      rfl

/-- A program that draws a zero and has nothing behind it: the zero is shown before the fault ends
the run. A file that is missing and a program that is too large are not shown at all. -/
theorem zero_shown_before_fault :
    let settings : Settings :=
      { rom := "zero.ch8", showBindings := false, clockHz := 500, scale := 10, console := true
        mute := false, machine := {} }
    let key : Random.Key := Vector.replicate 8 0
    let bytes : ByteArray := ⟨#[0xD0, 0x05]⟩
    let fault : Fault := { pc := 0x202, word := some 0, error := .notImplemented 0 }
    let missing := run settings (fun _ => .error .missing) key .unlimited id
    let large := run settings (fun _ => .ok ⟨Array.replicate 3585 0⟩) key .unlimited id
    let zero := run settings (fun _ => .ok bytes) key .unlimited id
    let program := ((Machine.new {} key).load bytes.data.toList).state
    (settings.console = true ∧ 1 ≤ settings.clockHz ∧
      Clock.share? settings.clockHz = some 2000000) ∧
    ((missing 4).failure = some (.unreadableRom "zero.ch8" .missing) ∧
      (missing 4).output = .empty) ∧
    ((large 4).failure = some (.unloadableRom "zero.ch8" (.programTooLarge 3585 3584)) ∧
      (large 4).output = .empty) ∧
    ((zero 1).failure = none ∧
      ∃ start s shown, Session.start program .unlimited = .going start ∧
        start.turns id 0 1 = .going s ∧ s.showFrame = .going shown ∧
        shown.sink.written = (outputOf (program.pictures (loop id 1))).toUTF8) ∧
    (stepOf program id 1).answer = .error fault ∧ (zero 3).failure = some (.faulted fault) ∧
      ∃ before, before < 3 ∧ (stepOf program id before).answer = .error fault ∧ (zero 3).output =
        (outputOf (program.pictures (loop id before ++ [.takeFrame]))).toUTF8 := by
  intro settings key bytes fault missing large zero program
  have hsteady : 1 ≤ settings.clockHz := by decide
  have hcycle : Session.cycle settings = 2000000 := by decide
  obtain ⟨hshare, -, hunreadable, -⟩ :=
    pictures_shown_once_in_order settings (fun _ => .error .missing) key id rfl hsteady
  rw [hcycle] at hshare
  obtain ⟨-, -, -, hunloadable⟩ := pictures_shown_once_in_order settings
    (fun _ => .ok ⟨Array.replicate 3585 0⟩) key id rfl hsteady
  obtain ⟨-, -, -, hshown⟩ :=
    pictures_shown_once_in_order settings (fun _ => .ok bytes) key id rfl hsteady
  have hlarge : ((Machine.new {} key).load (Array.replicate 3585 0).toList).answer =
      .error (.programTooLarge 3585 3584) := by
    have hlength : (Array.replicate 3585 (0 : UInt8)).toList.length = 3585 := by
      rw [Array.toList_replicate, List.length_replicate]
    have hlimit : Memory.programLimit < (Array.replicate 3585 (0 : UInt8)).toList.length := by
      rw [hlength]
      decide
    rw [Machine.load_of_large rfl hlimit, hlength]
    rfl
  obtain ⟨-, hshown⟩ := hshown bytes rfl
  obtain ⟨start, hstart, hturns⟩ := hshown rfl
  obtain ⟨hgoing, hfailed⟩ : (zero 1).failure = none ∧
      (stepOf program id 1).answer = .error fault := by
    decide +kernel
  obtain ⟨s, shown, hs, hshow, -, hwritten⟩ := (hturns 1).1 hgoing
  obtain ⟨-, hends, hfaults⟩ := hturns 3
  have hended : (zero 3).failure = some (.faulted fault) := hfaults 1 fault (by decide) hfailed
  obtain ⟨-, before, last, -, hbefore, hlast, -, hfailed', -, houtput, -⟩ := hends _ hended
  obtain rfl := Failure.faulted.inj hlast
  exact ⟨⟨rfl, hsteady, hshare⟩, hunreadable .missing rfl 4, (hunloadable _ rfl).1 _ hlarge 4,
    ⟨hgoing, start, s, shown, hstart, hs, hshow, hwritten⟩, hfailed, hended, before, hbefore,
    hfailed', houtput⟩

end Chip8.Console
