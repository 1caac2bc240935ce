import Chip8.Display.Error
import Chip8.Error
import Chip8.Keypad.Keyboard
import Chip8.Log
import Chip8.Settings.Resolve
import Chip8.Text.ControlSequence

/-!
# Reports of a run

What a run tells its user besides the picture: notices in the log, and at the end the failure that
stopped it, with its cause below it.
-/

namespace Chip8.Console

/-- A notice in the log of a run. -/
inductive Notice where
  /-- The program was read and put in memory. -/
  | loaded (path : String) (size : Nat)
  /-- The key bindings. -/
  | bindings
  /-- The program was stopped by a fault. -/
  | halting (fault : Fault)
  deriving DecidableEq

namespace Notice

/-- The component that notices come from. -/
def component : String := "chip8::run"

/-- The level of a notice. -/
def level : Notice → Log.Level
  | halting _ => .error
  | _ => .info

/-- The text of a notice. -/
def text : Notice → String
  | loaded path size => "loaded " ++ path ++ " (" ++ Text.decimal size ++ " bytes)"
  | bindings => "keypad bindings:\n" ++ Keyboard.layout
  | halting fault => "halting: " ++ fault.message

/-- The characters of a text with every line behind the first one moved in by four blanks. -/
def indented (cs : List Char) : List Char :=
  cs.flatMap fun c => if c = '\n' then '\n' :: List.replicate 4 ' ' else [c]

/-- What is printed of a notice behind its head: its text, indented and without control sequences,
and a line break. -/
def printed (n : Notice) : String :=
  Text.shown (String.ofList (indented n.text.toList ++ ['\n']))

end Notice

/-- Why a run ended. -/
inductive Failure where
  /-- The settings could not be found. -/
  | settings (cause : Settings.Error)
  /-- The program could not be read. -/
  | unreadableRom (path : String) (cause : Settings.ReadError)
  /-- The program could not be put in memory. -/
  | unloadableRom (path : String) (cause : Error)
  /-- There is no window that the screen could be shown in. -/
  | noWindow
  /-- The screen could not be shown. -/
  | display (cause : Display.Error)
  /-- The program was stopped. -/
  | faulted (fault : Fault)
  deriving DecidableEq

namespace Failure

/-- The wording of a failure. -/
def message : Failure → String
  | settings cause => cause.message
  | unreadableRom path _ => "unable to open " ++ path
  | unloadableRom path _ => "unable to load " ++ path
  | noWindow => "no window is available"
  | display cause => cause.message
  | faulted fault => fault.message

/-- The wording of the cause of a failure, if there is one to tell. -/
def cause? : Failure → Option String
  | settings (.unreadable _ cause) => some cause.message
  | settings _ => none
  | unreadableRom _ cause => some cause.message
  | unloadableRom _ cause => some cause.message
  | noWindow => none
  | display _ => none
  | faulted fault => some fault.error.message

/-- The report of a failure, line by line. -/
def lines (f : Failure) : List String :=
  ("Error: " ++ f.message) ::
    match f.cause? with
    | some cause => ["", "Caused by:", "    " ++ cause]
    | none => []

/-- What is printed of a failure: its report, every line with a line break. -/
def printed (f : Failure) : String :=
  String.join (f.lines.map (· ++ "\n"))

/-- The code that a failed run ends with. -/
def exitCode : UInt8 := 1

/-- The code that a run with a command line that makes no sense ends with. -/
def usageExitCode : UInt8 := 2

end Failure

end Chip8.Console
