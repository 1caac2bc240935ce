import Chip8.Screen.Basic

/-!
# Sprites

A sprite is a picture eight pixels wide, one byte a row with the most significant bit leftmost.
Drawing one turns over each pixel of the screen under a set bit of the sprite. What falls off the
right or the bottom edge is not drawn, and nothing wraps around. A drawing collides if it turns a
lit pixel dark.
-/

namespace Chip8

/-- A sprite and the place of its top left corner. -/
structure Sprite where
  /-- The column of the left edge. -/
  x : Nat
  /-- The row of the top edge. -/
  y : Nat
  /-- The rows from top to bottom. -/
  rows : List UInt8
  deriving DecidableEq

namespace Sprite

/-- Whether the bit in a column of a row is set, counted from the left. -/
def bit (row : UInt8) (column : Nat) : Bool :=
  row.toNat.testBit (7 - column)

/-- The columns of the set bits of a row, from left to right. -/
def columns (row : UInt8) : List Nat :=
  (List.range 8).filter (bit row)

/-- The pixels under the set bits of rows drawn at a place, row by row. -/
def pixelsFrom (x y : Nat) : List UInt8 → List (Nat × Nat)
  | [] => []
  | row :: rest => (columns row).map (fun column => (x + column, y)) ++ pixelsFrom x (y + 1) rest

/-- The pixels that a sprite turns over, some of them possibly off the screen. -/
def pixels (sprite : Sprite) : List (Nat × Nat) :=
  pixelsFrom sprite.x sprite.y sprite.rows

/-- Rows that follow others are drawn that much lower. -/
theorem pixelsFrom_append (x y : Nat) (upper lower : List UInt8) :
    pixelsFrom x y (upper ++ lower) =
      pixelsFrom x y upper ++ pixelsFrom x (y + upper.length) lower := by
  induction upper generalizing y with
  | nil => rfl
  | cons row rest ih =>
    simp only [List.cons_append, pixelsFrom, ih, List.append_assoc, List.length_cons,
      Nat.add_comm rest.length 1, Nat.add_assoc]

end Sprite

/-- A screen that is being drawn on, and whether a lit pixel has been turned dark so far. -/
structure Drawing where
  /-- The screen as drawn so far. -/
  screen : Screen
  /-- Whether a lit pixel was turned dark. -/
  collided : Bool
  deriving DecidableEq

namespace Drawing

/-- Turns over one pixel. -/
def flip (d : Drawing) (pixel : Nat × Nat) : Drawing where
  screen := d.screen.flip pixel.1 pixel.2
  collided := d.collided || d.screen.get pixel.1 pixel.2

end Drawing

/-- Draws a sprite. -/
def Screen.draw (s : Screen) (sprite : Sprite) : Drawing :=
  sprite.pixels.foldl Drawing.flip ⟨s, false⟩

end Chip8
