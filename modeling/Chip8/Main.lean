import Chip8.Console.Run
import Chip8.Settings.Usage

/-!
# The command line program

Reads the files that a run asks for, and takes a session from turn to turn: what a turn writes is
printed, and then the time that is left of its cycle is slept.
-/

namespace Chip8.Main

/-- The number of an error of the system, which may come with its sign turned over. -/
def errorNumber (code : UInt32) : UInt32 :=
  if code < 0x80000000 then code else 0 - code

/-- The reason why the system could not read a file, whether or not it found something there. -/
def readError (found : Bool) (e : IO.Error) : Settings.ReadError :=
  let unnamed (text : String) := if found then .other text else .unreachable text
  match e with
  | .noFileOrDirectory .. => .missing
  | .inappropriateType _ code _ => if errorNumber code = 21 then .isDirectory else .notDirectory
  | .permissionDenied .. => unnamed "Permission denied (os error 13)"
  | .invalidArgument _ code _ =>
    match errorNumber code with
    | 22 => .nulInPath
    | 36 => .nameTooLong
    | 40 => unnamed "Too many levels of symbolic links (os error 40)"
    | _ => unnamed (toString e)
  | _ => unnamed (toString e)

/-- The file at a path, as it is now. -/
def readFile (path : String) : IO (Except Settings.ReadError ByteArray) := do
  match ← (IO.FS.readBinFile path).toBaseIO with
  | .ok bytes => return .ok bytes
  | .error e =>
    let found ← (IO.FS.realPath path).toBaseIO
    return .error (readError found.isOk e)

/-- A directory in which one file was read. -/
def readDirectory (path : String) : IO Settings.Directory := do
  let found ← readFile path
  return fun other => if other = path then found else .error .missing

/-- A key for random bytes from the system. -/
def readEntropy : IO Random.Key := do
  let bytes ← IO.getRandomBytes 32
  return Vector.ofFn fun k =>
    (List.range 4).foldl (fun w byte => w <<< 8 ||| (bytes.data.getD (4 * k.val + byte) 0).toUInt32)
      0

/-- Prints a notice. -/
def printNotice (notice : Console.Notice) : IO Unit :=
  IO.eprint ("[" ++ String.ofList (notice.level.text.toList.rightpad 5 ' ') ++ " "
    ++ Console.Notice.component ++ "] " ++ notice.printed)

/-- Prints a failure, and gives the code to end with. -/
def fail (failure : Console.Failure) : IO UInt32 := do
  (Console.Transcript.closingNotices failure).forM printNotice
  IO.eprint failure.printed
  return Console.Failure.exitCode.toUInt32

/-- Prints what a session has written, and empties its output. -/
def flush (s : Console.Session) : IO Console.Session := do
  let out ← IO.getStdout
  out.write s.sink.written
  out.flush
  return { s with sink := .unlimited }

/-- Waits until a time. -/
def waitUntil (time : Nat) : IO Unit := do
  let now ← IO.monoNanosNow
  if now < time then IO.sleep (UInt32.ofNat ((time - now + 999999) / 1000000))

/-- Goes on with a session until it ends. -/
partial def play (cycle : Nat) (s : Console.Session) : IO UInt32 := do
  let start ← IO.monoNanosNow
  match s.showFrame with
  | .ended shown failure => do
    let _ ← flush shown
    fail failure
  | .going shown =>
    let shown ← flush shown
    match shown.step (← IO.monoNanosNow) with
    | .ended _ failure => fail failure
    | .going after =>
      waitUntil (start + cycle)
      play cycle after

/-- Runs a program with its settings. -/
def runSettings (settings : Settings) : IO UInt32 := do
  let files ← readDirectory settings.rom
  match Console.Session.loadRom settings files (← readEntropy) with
  | .error failure => fail failure
  | .ok (machine, size) =>
    (Console.Session.notices settings size).forM printNotice
    if settings.console then
      match Console.Session.start machine .unlimited with
      | .going s => play (Console.Session.cycle settings) s
      | .ended _ failure => fail failure
    else
      fail .noWindow

end Chip8.Main

/-- Runs the program that the command line asks for. -/
def main (words : List String) : IO UInt32 := do
  match Chip8.Settings.Arguments.parse words with
  | .error .help =>
    IO.print Chip8.Settings.Usage.text
    return 0
  | .error e =>
    IO.eprintln e.message
    return Chip8.Console.Failure.usageExitCode.toUInt32
  | .ok a =>
    let files ← Chip8.Main.readDirectory (a.config.getD Chip8.Settings.defaultFile)
    match Chip8.Settings.resolve files a with
    | .error cause => Chip8.Main.fail (.settings cause)
    | .ok settings => Chip8.Main.runSettings settings
