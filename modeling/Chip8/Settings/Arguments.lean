/-!
# Arguments

What a command line can ask for: the program to run, options that take a value, and flags that do
not. Each may be given once. Numbers are decimal, paths are not empty.
-/

namespace Chip8.Settings

/-- What a command line asks for. -/
structure Arguments where
  /-- The program to run. -/
  rom : Option String := none
  /-- The config file. -/
  config : Option String := none
  /-- Instructions executed a second. -/
  clockHz : Option UInt32 := none
  /-- Timer ticks a second. -/
  timerHz : Option UInt32 := none
  /-- Window pixels for each pixel of the screen. -/
  scale : Option UInt32 := none
  /-- Whether the screen is shown on the terminal. -/
  console : Bool := false
  /-- Whether there is no tone. -/
  mute : Bool := false
  /-- Whether the key bindings are logged at the start. -/
  showBindings : Bool := false
  /-- The seed of the random bytes. -/
  seed : Option UInt64 := none
  deriving DecidableEq, Repr

/-- Why a command line is refused. -/
inductive ArgumentError where
  /-- A word names no option, or is a second program. -/
  | unknown
  /-- An option lacks its value, or a path is empty. -/
  | missingValue
  /-- A value is not a number, or out of range. -/
  | malformedValue
  /-- An option or a flag occurs twice. -/
  | repeated
  /-- A flag was given a value. -/
  | unexpectedValue
  /-- Help was asked for. -/
  | help
  deriving DecidableEq, Repr

/-- An option, which takes a value. -/
inductive ValueOption where
  /-- The config file. -/
  | config
  /-- Instructions executed a second. -/
  | clockHz
  /-- Timer ticks a second. -/
  | timerHz
  /-- Window pixels for each pixel of the screen. -/
  | scale
  /-- The seed of the random bytes. -/
  | seed
  deriving DecidableEq, Repr

/-- A flag, which takes no value. -/
inductive Flag where
  /-- Shows the screen on the terminal. -/
  | console
  /-- Plays no tone. -/
  | mute
  /-- Logs the key bindings at the start. -/
  | showBindings
  deriving DecidableEq, Repr

/-- The spelling of an option behind its dashes. -/
def ValueOption.name : ValueOption → String
  | config => "config"
  | clockHz => "clock-hz"
  | timerHz => "timer-hz"
  | scale => "scale"
  | seed => "seed"

/-- The spelling of a flag behind its dashes. -/
def Flag.name : Flag → String
  | console => "console"
  | mute => "mute"
  | showBindings => "show-keymapping"

namespace Arguments

/-! ## Values -/

/-- The number that digits write, if there are any and all are digits. -/
def digitsValue? (cs : List Char) : Option Nat :=
  if !cs.isEmpty && cs.all Char.isDigit then some (Nat.ofDigitChars 10 cs 0) else none

/-- The number that a numeral with or without a sign writes. -/
def signedValue? (text : String) : Option Int :=
  match text.toList with
  | '+' :: digits => (digitsValue? digits).map Int.ofNat
  | '-' :: digits => (digitsValue? digits).map fun n => -Int.ofNat n
  | digits => (digitsValue? digits).map Int.ofNat

/-- The 32-bit number that a value writes, with or without a sign. -/
def word32 (text : String) : Except ArgumentError UInt32 :=
  match signedValue? text with
  | some n =>
    if 0 ≤ n ∧ n < UInt32.size then .ok (UInt32.ofNat n.toNat) else .error .malformedValue
  | none => .error .malformedValue

/-- The 64-bit number that a value writes, with a plus sign or none. -/
def word64 (text : String) : Except ArgumentError UInt64 :=
  let digits :=
    match text.toList with
    | '+' :: digits => digits
    | digits => digits
  match digitsValue? digits with
  | some n => if n < UInt64.size then .ok (UInt64.ofNat n) else .error .malformedValue
  | none => .error .malformedValue

/-- The path that a value is; a path is not empty. -/
def path (text : String) : Except ArgumentError String :=
  if text = "" then .error .missingValue else .ok text

/-! ## Options and flags -/

/-- Whether an option was given. -/
def hasOption (a : Arguments) : ValueOption → Bool
  | .config => a.config.isSome
  | .clockHz => a.clockHz.isSome
  | .timerHz => a.timerHz.isSome
  | .scale => a.scale.isSome
  | .seed => a.seed.isSome

/-- The arguments with the value of an option. -/
def putOption (a : Arguments) (text : String) : ValueOption → Except ArgumentError Arguments
  | .config => (path text).map fun p => { a with config := some p }
  | .clockHz => (word32 text).map fun n => { a with clockHz := some n }
  | .timerHz => (word32 text).map fun n => { a with timerHz := some n }
  | .scale => (word32 text).map fun n => { a with scale := some n }
  | .seed => (word64 text).map fun n => { a with seed := some n }

/-- The arguments with an option given, once. -/
def giveOption (a : Arguments) (option : ValueOption) (text : String) :
    Except ArgumentError Arguments :=
  if a.hasOption option then .error .repeated else a.putOption text option

/-- Whether a flag was given. -/
def hasFlag (a : Arguments) : Flag → Bool
  | .console => a.console
  | .mute => a.mute
  | .showBindings => a.showBindings

/-- The arguments with a flag set. -/
def putFlag (a : Arguments) : Flag → Arguments
  | .console => { a with console := true }
  | .mute => { a with mute := true }
  | .showBindings => { a with showBindings := true }

/-- The arguments with a flag given, once. -/
def giveFlag (a : Arguments) (flag : Flag) : Except ArgumentError Arguments :=
  if a.hasFlag flag then .error .repeated else .ok (a.putFlag flag)

/-- The arguments with the program given. -/
def giveRom (a : Arguments) (text : String) : Except ArgumentError Arguments :=
  (path text).map fun p => { a with rom := some p }

end Arguments

end Chip8.Settings
