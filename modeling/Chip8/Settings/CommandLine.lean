import Chip8.Settings.Arguments

/-!
# The command line

A command line is read word by word. A word that starts with two dashes names an option or a flag;
an option takes a value, either behind an equals sign or as the next word. Any other word is the
program to run, and there is at most one. After a word of two dashes alone every word is one of
these, whatever it starts with. A single dash is a plain word, and the only short option is `-h`.

What a word means is settled only when the next one has been looked at, so of two mistakes the one
that is settled first is reported.
-/

namespace Chip8.Settings

/-! ## Words -/

/-- What a name behind two dashes can be. -/
inductive LongName where
  /-- The name of an option. -/
  | valued (option : ValueOption)
  /-- The name of a flag. -/
  | switch (flag : Flag)
  /-- The request for help. -/
  | help
  deriving DecidableEq, Repr

/-- The spelling of a name behind two dashes. -/
def LongName.text : LongName → String
  | valued option => option.name
  | switch flag => flag.name
  | help => "help"

/-- All names. -/
def LongName.all : List LongName :=
  [valued .config, valued .clockHz, valued .timerHz, valued .scale, valued .seed,
    switch .console, switch .mute, switch .showBindings, help]

/-- The name with a spelling. -/
def LongName.ofText? (spelling : String) : Option LongName :=
  all.find? fun name => name.text == spelling

/-- The shape of a word. -/
inductive Word where
  /-- Two dashes alone. -/
  | separator
  /-- A name behind two dashes, and what follows its equals sign if it has one. -/
  | long (name : String) (value : Option String)
  /-- A letter behind a single dash. -/
  | short (letter : Char)
  /-- Any other word. -/
  | plain (text : String)
  deriving DecidableEq, Repr

namespace Word

/-- The name and the value of a word that starts with two dashes. -/
def ofLong (cs : List Char) : Word :=
  let name := String.ofList (cs.takeWhile (· != '='))
  match cs.dropWhile (· != '=') with
  | [] => .long name none
  | _ :: value => .long name (some (String.ofList value))

/-- The shape of a word. -/
def ofText (text : String) : Word :=
  match text.toList with
  | ['-', '-'] => separator
  | '-' :: '-' :: rest => ofLong rest
  | '-' :: letter :: _ => short letter
  | _ => plain text

end Word

/-- A word that has been read but not settled. -/
inductive Pending where
  /-- There is none. -/
  | nothing
  /-- An option, and its value if that has been read. -/
  | option (option : ValueOption) (value : Option String)
  /-- The program. -/
  | rom (text : String)
  deriving DecidableEq, Repr

/-- How far a command line has been read. -/
structure Reading where
  /-- What has been settled. -/
  settled : Arguments := {}
  /-- What has not. -/
  pending : Pending := .nothing
  /-- Whether the program has been read. -/
  romRead : Bool := false
  /-- Whether two dashes alone have been read. -/
  separated : Bool := false
  deriving DecidableEq, Repr

namespace Reading

/-- Settles what is pending. -/
def settle (r : Reading) : Except ArgumentError Reading :=
  match r.pending with
  | .nothing => .ok r
  | .option _ none => .error .missingValue
  | .option option (some text) =>
    (r.settled.giveOption option text).map fun a =>
      { r with settled := a, pending := .nothing }
  | .rom text =>
    (r.settled.giveRom text).map fun a => { r with settled := a, pending := .nothing }

/-- Reads the program. -/
def readRom (r : Reading) (text : String) : Except ArgumentError Reading :=
  if r.romRead then .error .unknown
  else r.settle.map fun r => { r with pending := .rom text, romRead := true }

/-- Reads a plain word: the value of a pending option that lacks one, or the program. -/
def readPlain (r : Reading) (text : String) : Except ArgumentError Reading :=
  match r.pending with
  | .option option none => .ok { r with pending := .option option (some text) }
  | _ => r.readRom text

/-- Reads a name behind two dashes. -/
def readLong (r : Reading) (name : Option LongName) (value : Option String) :
    Except ArgumentError Reading :=
  match name, value with
  | none, _ => .error .unknown
  | some (.valued option), none =>
    r.settle.map fun r => { r with pending := .option option none }
  | some (.valued option), some text =>
    r.settle.bind fun r =>
      (r.settled.giveOption option text).map fun a => { r with settled := a }
  | some (.switch _), some _ => .error .unexpectedValue
  | some (.switch flag), none =>
    r.settle.bind fun r => (r.settled.giveFlag flag).map fun a => { r with settled := a }
  | some .help, some _ => .error .unexpectedValue
  | some .help, none => r.settle.bind fun _ => .error .help

/-- Reads one word. -/
def read (r : Reading) (text : String) : Except ArgumentError Reading :=
  if r.separated then r.readRom text
  else match Word.ofText text with
    | .separator => .ok { r with separated := true }
    | .long name value => r.readLong (LongName.ofText? name) value
    | .short letter => if letter = 'h' then r.settle.bind fun _ => .error .help else .error .unknown
    | .plain text => r.readPlain text

end Reading

/-- What a command line asks for, or why it is refused. -/
def Arguments.parse (words : List String) : Except ArgumentError Arguments :=
  (words.foldlM Reading.read {}).bind fun r => r.settle.map Reading.settled

end Chip8.Settings
