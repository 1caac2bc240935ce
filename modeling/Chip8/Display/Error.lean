import Chip8.Text.Numeral

/-!
# Display errors

What can go wrong while a screen is shown. A window, its canvas and its textures fail either with a
report of the graphics library or because a size does not fit; the output of a terminal fails with
a report of the system.
-/

namespace Chip8.Display

/-- A report of the graphics library, in its own words. -/
def libraryReport (text : String) : String :=
  "SDL error: " ++ text

/-- A value in brackets. -/
def bracketed (value : UInt32) : String :=
  "(" ++ Text.decimal value.toNat ++ ")"

/-- Why a window could not be made. -/
inductive WindowError where
  /-- The library reported a failure. -/
  | reported (text : String)
  /-- The width is more than a window can have. -/
  | widthTooLarge (width : UInt32)
  /-- The height is more than a window can have. -/
  | heightTooLarge (height : UInt32)
  deriving DecidableEq, Repr

/-- The wording of a window error. -/
def WindowError.message : WindowError → String
  | reported text => libraryReport text
  | widthTooLarge width => "Window width " ++ bracketed width ++ " is too high."
  | heightTooLarge height => "Window height " ++ bracketed height ++ " is too high."

/-- Why a canvas could not be made. -/
inductive CanvasError where
  /-- The library reported a failure. -/
  | reported (text : String)
  /-- A named number is more than the library can take. -/
  | overflow (name : String) (value : UInt32)
  deriving DecidableEq, Repr

/-- The wording of a canvas error. -/
def CanvasError.message : CanvasError → String
  | reported text => libraryReport text
  | overflow name value => "Integer '" ++ name ++ "' overflows " ++ bracketed value

/-- Why a texture could not be made. -/
inductive TextureError where
  /-- The library reported a failure. -/
  | reported (text : String)
  /-- The width is more than a texture can have. -/
  | widthOverflow (width : UInt32)
  /-- The height is more than a texture can have. -/
  | heightOverflow (height : UInt32)
  deriving DecidableEq, Repr

/-- The wording of a texture error. -/
def TextureError.message : TextureError → String
  | reported text => libraryReport text
  | widthOverflow width => "Integer width overflows " ++ bracketed width
  | heightOverflow height => "Integer height overflows " ++ bracketed height

/-- Why a screen could not be shown. -/
inductive Error where
  /-- The graphics library failed and said no more than this. -/
  | library (text : String)
  /-- The window failed. -/
  | window (cause : WindowError)
  /-- The canvas failed. -/
  | canvas (cause : CanvasError)
  /-- A texture failed. -/
  | texture (cause : TextureError)
  /-- The output failed, as the system reported. -/
  | output (text : String)
  deriving DecidableEq, Repr

/-- The wording of a display error. -/
def Error.message : Error → String
  | library text => "sdl2: " ++ text
  | window cause => cause.message
  | canvas cause => cause.message
  | texture cause => cause.message
  | output text => text

end Chip8.Display
