import Chip8.Console.Session

/-!
# Whole runs

A run from its files and its command line to its end, as a function of the time that the clock
tells at each turn. The transcript of a run has everything that its user sees.
-/

namespace Chip8.Console

/-- What a run shows to its user. -/
structure Transcript where
  /-- What was written to the terminal. -/
  output : ByteArray := .empty
  /-- The notices in the log, in order. -/
  notices : List Notice := []
  /-- Why the run ended, if it has. -/
  failure : Option Failure := none

namespace Transcript

/-- The notice that a failure adds to the log. -/
def closingNotices : Failure → List Notice
  | .faulted fault => [.halting fault]
  | _ => []

/-- The transcript of a run that failed before anything was shown. -/
def ofFailure (failure : Failure) : Transcript where
  failure := some failure

/-- The transcript of a session, after the notices at its start. -/
def ofProgress (notices : List Notice) : Progress → Transcript
  | .going s => { output := s.sink.written, notices := notices }
  | .ended s failure =>
    { output := s.sink.written
      notices := notices ++ closingNotices failure
      failure := some failure }

end Transcript

/-- A run for a number of turns, or fewer if it ends; the clock tells the time of each turn. A run
that is to be shown in a window ends before the first one, since no window can be made here. -/
def run (settings : Settings) (files : Settings.Directory) (entropy : Random.Key)
    (sink : Display.Sink) (clock : Nat → Nat) (turns : Nat) : Transcript :=
  match Session.loadRom settings files entropy with
  | .error failure => .ofFailure failure
  | .ok (machine, size) =>
    let notices := Session.notices settings size
    if settings.console then
      .ofProgress notices
        (match Session.start machine sink with
        | .going s => s.turns clock 0 turns
        | .ended s failure => .ended s failure)
    else { notices := notices, failure := some .noWindow }

/-- A run from its command line on. The clock may depend on the settings. -/
def runArguments (a : Settings.Arguments) (files : Settings.Directory) (entropy : Random.Key)
    (sink : Display.Sink) (clock : Settings → Nat → Nat) (turns : Nat) : Transcript :=
  match Settings.resolve files a with
  | .error cause => .ofFailure (.settings cause)
  | .ok settings => run settings files entropy sink (clock settings) turns

end Chip8.Console
