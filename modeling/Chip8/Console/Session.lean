import Chip8.Console.Report
import Chip8.Display.Terminal
import Chip8.Machine.Step

/-!
# Console sessions

A session shows a program on a terminal. It goes on in turns: a turn shows the frame that waits, if
one does, and then makes one step. A session ends when a step or a write to the terminal fails.
-/

namespace Chip8.Console

/-- A program that is being run on a terminal. -/
structure Session where
  /-- The machine that runs it. -/
  machine : Machine
  /-- The output that the screen is shown on. -/
  sink : Display.Sink

/-- A session that goes on, or one that has ended and why. -/
inductive Progress where
  /-- The session goes on. -/
  | going (s : Session)
  /-- The session has ended. -/
  | ended (s : Session) (failure : Failure)

/-- The session, whether or not it has ended. -/
def Progress.session : Progress → Session
  | going s => s
  | ended s _ => s

namespace Session

/-- Shows the frame that waits, if one does. -/
def showFrame (s : Session) : Progress :=
  let taken := s.machine.takeFrame
  match taken.answer with
  | none => .going { s with machine := taken.state }
  | some screen =>
    match Display.Terminal.render s.sink screen with
    | (sink, .ok ()) => .going { machine := taken.state, sink := sink }
    | (sink, .error e) => .ended { machine := taken.state, sink := sink } (.display e)

/-- Makes one step. -/
def step (s : Session) (now : Nat) : Progress :=
  let stepped := s.machine.step now
  let after := { s with machine := stepped.state }
  match stepped.answer with
  | .ok () => .going after
  | .error fault => .ended after (.faulted fault)

/-- One turn at a time in nanoseconds. -/
def turn (s : Session) (now : Nat) : Progress :=
  match s.showFrame with
  | .going shown => shown.step now
  | .ended shown failure => .ended shown failure

/-- A number of turns, fewer if the session ends; the clock tells the time of each, counted from
`first`. -/
def turns (s : Session) (clock : Nat → Nat) (first : Nat) : Nat → Progress
  | 0 => .going s
  | count + 1 =>
    match s.turn (clock first) with
    | .going after => after.turns clock (first + 1) count
    | .ended after failure => .ended after failure

/-- A new machine with the program of the settings in it, and the program's size. -/
def loadRom (settings : Settings) (files : Settings.Directory) (entropy : Random.Key) :
    Except Failure (Machine × Nat) :=
  match files settings.rom with
  | .error cause => .error (.unreadableRom settings.rom cause)
  | .ok bytes =>
    let loading := (Machine.new settings.machine entropy).load bytes.data.toList
    match loading.answer with
    | .ok () => .ok (loading.state, bytes.size)
    | .error cause => .error (.unloadableRom settings.rom cause)

/-- The notices of a program that was loaded. -/
def notices (settings : Settings) (size : Nat) : List Notice :=
  .loaded settings.rom size :: if settings.showBindings then [.bindings] else []

/-- The session that shows a machine on an output. -/
def start (m : Machine) (sink : Display.Sink) : Progress :=
  match Display.Terminal.start sink with
  | (sink, .ok ()) => .going { machine := m, sink := sink }
  | (sink, .error e) => .ended { machine := m, sink := sink } (.display e)

/-- The time between steps in nanoseconds. There has to be at least one step a second. -/
def cycle (settings : Settings) : Nat :=
  Clock.second / settings.clockHz.toNat

/-- With at least one step a second, the time between steps is a share of a second. -/
theorem share?_clockHz {settings : Settings} (h : 1 ≤ settings.clockHz) :
    Clock.share? settings.clockHz = some (cycle settings) := by
  have hne : settings.clockHz ≠ 0 := by
    intro hzero
    rw [hzero] at h
    exact absurd h (by decide)
  exact if_neg hne

end Session

end Chip8.Console
