import Chip8.Machine.Basic
import Chip8.Settings.CommandLine
import Chip8.Settings.Directory
import Chip8.Settings.File

/-!
# Resolving settings

The settings of a run come from the command line, then from the config file, then from the
defaults. The config file is the one that the command line names; if it names none it is
`config.json`, and that may be absent.
-/

namespace Chip8

/-- Everything a run needs to know. -/
structure Settings where
  /-- The program to run. -/
  rom : String
  /-- Whether the key bindings are logged at the start. -/
  showBindings : Bool
  /-- Instructions executed a second, at least one. -/
  clockHz : UInt32
  /-- Window pixels for each pixel of the screen, at least one across and down. -/
  scale : UInt32
  /-- Whether the screen is shown on the terminal. -/
  console : Bool
  /-- Whether there is no tone. -/
  mute : Bool
  /-- How the machine is made. -/
  machine : Config
  deriving DecidableEq, Repr

namespace Settings

/-- Why the settings of a run could not be found. -/
inductive Error where
  /-- The config file could not be read. -/
  | unreadable (path : String) (cause : ReadError)
  /-- The config file is not of the required form. -/
  | malformed (path : String)
  /-- There is no program to run. -/
  | noRom
  deriving DecidableEq, Repr

/-- The wording of a settings error. -/
def Error.message : Error → String
  | unreadable path _ => "reading config " ++ path
  | malformed path => "parsing config " ++ path
  | noRom => "no ROM given; pass one or set FILE_PATH in the config file"

/-- The config file that is read if the command line names none. -/
def defaultFile : String := "config.json"

/-- The config file at a path. -/
def File.load (files : Directory) (path : String) : Except Error File :=
  match files.readText path with
  | .error cause => .error (.unreadable path cause)
  | .ok text =>
    match File.parse? text with
    | some file => .ok file
    | none => .error (.malformed path)

/-- The config file that a command line leads to. -/
def File.find (files : Directory) (a : Arguments) : Except Error File :=
  match a.config with
  | some path => File.load files path
  | none => if files.contains defaultFile then File.load files defaultFile else .ok default

/-- How the machine is made. -/
def machineConfig (a : Arguments) (file : File) : Config :=
  let config := Config.withTimerHz {} (a.timerHz.getD file.timerHz)
  match a.seed with
  | some seed => config.withSeed seed
  | none => config

/-- The settings that a command line and a config file make together. -/
def merge (a : Arguments) (file : File) : Except Error Settings :=
  match a.rom.or file.rom with
  | none => .error .noRom
  | some rom =>
    .ok {
      rom := rom
      showBindings := a.showBindings || file.showBindings
      clockHz := max (a.clockHz.getD file.clockHz) 1
      scale := max (a.scale.getD file.scale) 1
      console := a.console || file.console
      mute := a.mute || file.mute
      machine := machineConfig a file }

/-- The settings that a command line leads to. -/
def resolve (files : Directory) (a : Arguments) : Except Error Settings :=
  (File.find files a).bind (merge a)

end Settings

end Chip8
