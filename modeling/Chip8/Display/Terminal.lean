import Chip8.Display.Error
import Chip8.Display.Sink
import Chip8.Screen.Picture

/-!
# The terminal display

Shows screens on a terminal. The terminal is cleared once; after that the cursor goes back to the
top left before each screen, so that a screen is written over the one before it.
-/

namespace Chip8.Display

namespace Terminal

/-- The control sequence that clears the terminal. -/
def clearSequence : String := "\x1b[2J"

/-- The control sequence that moves the cursor to the top left. -/
def homeSequence : String := "\x1b[H"

/-- What is written for a screen. -/
def frameText (screen : Screen) : String :=
  homeSequence ++ screen.terminalText

/-- Writes a text or fails with the report of a full output. -/
def put (sink : Sink) (text : String) : Sink × Except Error Unit :=
  match sink.write text with
  | (after, true) => (after, .ok ())
  | (after, false) => (after, .error (.output Sink.fullReport))

/-- Makes the terminal ready. -/
def start (sink : Sink) : Sink × Except Error Unit :=
  put sink clearSequence

/-- Shows a screen. -/
def render (sink : Sink) (screen : Screen) : Sink × Except Error Unit :=
  put sink (frameText screen)

/-- Shows screens one after the other, whether or not those before could be shown. -/
def renderAll (sink : Sink) : List Screen → Sink × List (Except Error Unit)
  | [] => (sink, [])
  | screen :: rest =>
    let (shown, result) := render sink screen
    let (after, results) := renderAll shown rest
    (after, result :: results)

end Terminal

end Chip8.Display
