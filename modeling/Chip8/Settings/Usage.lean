import Chip8.Settings.Arguments

/-!
# Help on the command line

What is printed when help is asked for, and the wording of the reasons to refuse a command line.
-/

namespace Chip8.Settings

namespace Usage

/-- A line of a table: what it is about, blanks up to a column, and what there is to say. -/
def row (column : Nat) (subject help : String) : String :=
  String.ofList ((("  " ++ subject).toList).rightpad column ' ') ++ help

/-- A long option behind the place of a short one, with the name of its value. -/
def valuedSubject (option : ValueOption) (value : String) : String :=
  "    --" ++ option.name ++ " <" ++ value ++ ">"

/-- A long flag behind the place of a short one. -/
def flagSubject (flag : Flag) : String :=
  "    --" ++ flag.name

/-- The options and flags with what they do. -/
def options : List (String × String) := [
  (valuedSubject .config "CONFIG", "JSON config file"),
  (valuedSubject .clockHz "CLOCK_HZ", "Instructions executed per second"),
  (valuedSubject .timerHz "TIMER_HZ", "Timer decrements per second"),
  (valuedSubject .scale "SCALE", "Window pixels per Chip-8 pixel"),
  (flagSubject .console, "Draw in the terminal instead of a window (no keyboard or sound)"),
  (flagSubject .mute, ""),
  (flagSubject .showBindings, "Log the keyboard bindings at start-up"),
  (valuedSubject .seed "SEED", "Seed for the random number instruction"),
  ("-h, --help", "Print help")]

/-- The lines of the help. -/
def lines : List String :=
  ["Runs a Chip-8 ROM in a window", "", "Usage: chip8 [OPTIONS] [ROM]", "", "Arguments:",
    row 9 "[ROM]" "ROM to run; overrides FILE_PATH from the config file", "", "Options:"]
    ++ options.map fun (subject, help) => row 29 subject help

/-- The help. -/
def text : String :=
  String.join (lines.map (· ++ "\n"))

end Usage

/-- The wording of the reason to refuse a command line. -/
def ArgumentError.message : ArgumentError → String
  | unknown => "error: unexpected argument found"
  | missingValue => "error: a value is required but none was supplied"
  | malformedValue => "error: invalid value"
  | repeated => "error: an argument cannot be used multiple times"
  | unexpectedValue => "error: unexpected value for a flag"
  | help => Usage.text

end Chip8.Settings
