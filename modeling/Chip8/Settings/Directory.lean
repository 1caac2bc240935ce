/-!
# Files

What a program sees of the file system: for each path the bytes of the file, or the reason why it
could not be read. Some of the reasons tell that nothing was found at the path, and the others that
something is there all the same.
-/

namespace Chip8.Settings

/-- Why a file could not be read. -/
inductive ReadError where
  /-- There is no such file. -/
  | missing
  /-- A file was used as a directory. -/
  | notDirectory
  /-- The path names a directory. -/
  | isDirectory
  /-- The path or a name in it has too many bytes. -/
  | nameTooLong
  /-- The path has a zero byte in it. -/
  | nulInPath
  /-- Nothing was found, because the system could not follow the path, for a reason in its words. -/
  | unreachable (text : String)
  /-- What was found could not be read, for another reason, in the words of the system. -/
  | other (text : String)
  deriving DecidableEq, Repr

/-- The wording of a read error. -/
def ReadError.message : ReadError → String
  | missing => "No such file or directory (os error 2)"
  | notDirectory => "Not a directory (os error 20)"
  | isDirectory => "Is a directory (os error 21)"
  | nameTooLong => "File name too long (os error 36)"
  | nulInPath => "file name contained an unexpected NUL byte"
  | unreachable text => text
  | other text => text

/-- Whether something is there that could not be read. -/
def ReadError.found : ReadError → Bool
  | isDirectory => true
  | other _ => true
  | _ => false

/-- The files by path. -/
abbrev Directory := String → Except ReadError ByteArray

namespace Directory

/-- Whether something is found at a path. -/
def contains (files : Directory) (path : String) : Bool :=
  match files path with
  | .ok _ => true
  | .error cause => cause.found

/-- The report of a file that is not text. -/
def notTextReport : String := "stream did not contain valid UTF-8"

/-- The text of a file. -/
def readText (files : Directory) (path : String) : Except ReadError String :=
  match files path with
  | .error e => .error e
  | .ok bytes =>
    match String.fromUTF8? bytes with
    | some text => .ok text
    | none => .error (.other notTextReport)

end Directory

end Chip8.Settings
