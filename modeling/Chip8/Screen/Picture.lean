import Chip8.Screen.Basic

/-!
# Pictures of the screen

Three renderings of the same pixels: lines of text with a blank or a star for each pixel, lines
with a dot or a hash mark, and a texture with three bytes for each pixel.
-/

namespace Chip8

namespace Screen

/-- The lines of a picture, from top to bottom, in a character for lit and one for dark. -/
def lines (s : Screen) (lit dark : Char) : List (List Char) :=
  s.rows.map fun row => row.map fun on => if on then lit else dark

/-- The characters of a picture, each line ended by a line break. -/
def characters (s : Screen) (lit dark : Char) : List Char :=
  (s.lines lit dark).flatMap fun line => line ++ ['\n']

/-- The picture for a terminal: a star for a lit pixel and a blank for a dark one. -/
def terminalText (s : Screen) : String :=
  String.ofList (s.characters '*' ' ')

/-- The picture for a reader: a hash mark for a lit pixel and a dot for a dark one. -/
def markedText (s : Screen) : String :=
  String.ofList (s.characters '#' '.')

/-- The lines of the picture for a reader. -/
def markedLines (s : Screen) : List String :=
  (s.lines '#' '.').map String.ofList

/-- A texture of red, green and blue bytes, row by row: full intensity for a lit pixel and none
for a dark one. -/
def texture (s : Screen) : List UInt8 :=
  s.pixels.toList.flatMap fun on => List.replicate 3 (if on then 255 else 0)

end Screen

end Chip8
