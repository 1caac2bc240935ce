import Chip8.Json.Reader

/-!
# The config file

A config file holds a JSON object with up to seven known keys. Each may be left out and then has its
default; none may occur twice; other keys are ignored. An array is read as the values of the known
keys in order, of which the last ones may be left out.
-/

namespace Chip8.Settings

/-- What a config file says. -/
structure File where
  /-- Whether the key bindings are logged at the start. -/
  showBindings : Bool := false
  /-- The program to run. -/
  rom : Option String := none
  /-- Instructions executed a second. -/
  clockHz : UInt32 := 500
  /-- Timer ticks a second. -/
  timerHz : UInt32 := 60
  /-- Window pixels for each pixel of the screen, across and down. -/
  scale : UInt32 := 10
  /-- Whether the screen is shown on the terminal. -/
  console : Bool := false
  /-- Whether there is no tone. -/
  mute : Bool := false
  deriving DecidableEq, Repr, Inhabited

/-- The known keys of a config file. -/
inductive Field where
  /-- Whether the key bindings are logged. -/
  | showBindings
  /-- The program to run. -/
  | rom
  /-- Instructions executed a second. -/
  | clockHz
  /-- Timer ticks a second. -/
  | timerHz
  /-- Window pixels for each pixel of the screen. -/
  | scale
  /-- Whether the screen is shown on the terminal. -/
  | console
  /-- Whether there is no tone. -/
  | mute
  deriving DecidableEq, Repr

namespace Field

/-- The known keys in order. -/
def all : List Field := [showBindings, rom, clockHz, timerHz, scale, console, mute]

/-- The spelling of a known key. -/
def name : Field → String
  | showBindings => "SHOW_KEYMAPPING"
  | rom => "FILE_PATH"
  | clockHz => "CLOCK_SPEED_HZ"
  | timerHz => "TIMER_HZ"
  | scale => "SCALE"
  | console => "CONSOLE"
  | mute => "MUTE"

/-- The known key with a spelling. -/
def ofName? (spelling : String) : Option Field :=
  all.find? fun field => field.name == spelling

end Field

namespace File

/-- The file with one key set, if the value is of the kind that the key wants. -/
def set? (file : File) (field : Field) (v : Json.Value) : Option File :=
  match field with
  | .showBindings => v.bool?.map fun b => { file with showBindings := b }
  | .rom => v.optionalText?.map fun path => { file with rom := path }
  | .clockHz => v.word?.map fun n => { file with clockHz := n }
  | .timerHz => v.word?.map fun n => { file with timerHz := n }
  | .scale => v.word?.map fun n => { file with scale := n }
  | .console => v.bool?.map fun b => { file with console := b }
  | .mute => v.bool?.map fun b => { file with mute := b }

/-- The file with several keys set, one after the other. -/
def setAll? (file : File) (entries : List (Field × Json.Value)) : Option File :=
  entries.foldlM (fun file entry => file.set? entry.1 entry.2) file

/-- A member with the text of its key, if the key has one. -/
def spelled? (member : Json.Member) : Option (String × Json.Value) :=
  member.1.map fun spelling => (spelling, member.2)

/-- A member with its known key, if the key is known. -/
def known? (member : String × Json.Value) : Option (Field × Json.Value) :=
  (Field.ofName? member.1).map fun field => (field, member.2)

/-- The members of an object that have known keys, if every key has a text. -/
def entries? (members : List Json.Member) : Option (List (Field × Json.Value)) :=
  (members.mapM spelled?).map fun named => named.filterMap known?

/-- The file that the members of an object write. -/
def ofMembers? (members : List Json.Member) : Option File :=
  (entries? members).bind fun entries =>
    if (entries.map Prod.fst).Nodup then setAll? default entries else none

/-- The file that the items of an array write. -/
def ofItems? (items : List Json.Value) : Option File :=
  if items.length ≤ Field.all.length then setAll? default (Field.all.zip items) else none

/-- The file that a JSON value writes. -/
def ofValue? : Json.Value → Option File
  | .object members => ofMembers? members
  | .array items => ofItems? items
  | .scalar _ => none

/-- The file that a text writes. -/
def parse? (text : String) : Option File :=
  (Json.Value.parse? text).bind ofValue?

end File

end Chip8.Settings
