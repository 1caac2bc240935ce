import Chip8.Proofs.Checked.Word
import Chip8.Screen.Sprite
import Mathlib.Data.Nat.Bitwise

/-!
# Checked drawing

A sprite drawn bit by bit, with the mask of a bit shifted into place, the column and the row of its
pixel and the position of that in the table computed in 64 bits, and the pixel read and replaced by
bounds. The column and the row of a corner come from bytes and a sprite has few rows, so the sums
fit wherever the sprite is; a position is computed for a pixel on the screen only, where it is
inside the table. `draw_eq` shows that the drawing is that of `Screen.draw`.
-/

namespace Chip8.Checked

/-- The position of a pixel, if it is on the screen. -/
def index (x y : Nat) : Option (Option Nat) := do
  if Screen.Shows x y then
    let above ← fit 64 (y * Screen.width)
    return some (← fit 64 (above + x))
  else return none

/-- Turns over one pixel, if it is on the screen. -/
def flip (d : Drawing) (x y : Nat) : Option Drawing := do
  match ← index x y with
  | none => return d
  | some k =>
    let lit ← d.screen.pixels[k]?
    return { screen := ⟨← put d.screen.pixels k (lit ^^ true)⟩, collided := d.collided || lit }

/-- Turns over the pixel under a bit of a row, if the bit is set. The row is so many below the
corner. -/
def drawBit (x y row : Nat) (byte : UInt8) (d : Drawing) (column : Nat) : Option Drawing := do
  let mask := (0x80 : UInt8) >>> UInt8.ofNat (← distance 8 column)
  if byte &&& mask = 0 then return d
  else flip d (← fit 64 (x + column)) (← fit 64 (y + row))

/-- Draws rows, the first of them so many below the corner. -/
def drawRows (x y : Nat) (d : Drawing) (row : Nat) : List UInt8 → Option Drawing
  | [] => some d
  | byte :: rest => do
    let drawn ← (List.range 8).foldlM (drawBit x y row byte) d
    drawRows x y drawn (← fit 64 (row + 1)) rest

/-- Draws a sprite. -/
def draw (s : Screen) (sprite : Sprite) : Option Drawing :=
  drawRows sprite.x sprite.y ⟨s, false⟩ 0 sprite.rows

/-- A pixel on the screen has the position that it has there, and any other has none. -/
theorem index_eq (x y : Nat) :
    index x y = some (if Screen.Shows x y then some (Screen.position x y) else none) := by
  rw [index]
  by_cases h : Screen.Shows x y
  · have hlt := Screen.position_lt h
    unfold Screen.position at hlt
    rw [if_pos h, if_pos h, fit_of_lt (by omega), Option.bind_eq_bind, Option.bind_some,
      fit_of_lt (by omega)]
    rfl
  · rw [if_neg h, if_neg h]
    rfl

/-- A pixel is turned over wherever it is. -/
theorem flip_eq (d : Drawing) (x y : Nat) : flip d x y = some (d.flip (x, y)) := by
  rw [flip, index_eq, Option.bind_eq_bind, Option.bind_some]
  by_cases h : Screen.Shows x y
  · -- The position is inside the table, where reading and writing by bounds succeed.
    have hlt := Screen.position_lt h
    have hget : d.screen.get x y = d.screen.pixels[Screen.position x y] := by
      rw [Screen.get, if_pos h, Vector.getElem?_eq_getElem hlt, Option.getD_some]
    have hset (on : Bool) : d.screen.set x y on =
        ⟨d.screen.pixels.set (Screen.position x y) on hlt⟩ := by
      rw [Screen.set, if_pos h]
      simp only [Vector.set, Vector.setIfInBounds, Array.setIfInBounds, Vector.size_toArray, hlt,
        dite_true]
    rw [if_pos h, Drawing.flip, Screen.flip, hset, hget]
    simp only [Vector.getElem?_eq_getElem hlt, put_of_lt _ hlt, Bool.xor_true]
    rfl
  · -- Off the screen nothing is drawn, and what is read there is dark.
    have hflip : d.screen.flip x y = d.screen := if_neg h
    rw [if_neg h, Drawing.flip, hflip, Screen.get_of_not_shows _ h, Bool.or_false]
    rfl

/-- The mask of a bit tells whether the bit is set. -/
theorem and_mask_eq_zero (byte : UInt8) {column : Nat} (h : column < 8) :
    byte &&& (0x80 : UInt8) >>> UInt8.ofNat column = 0 ↔ ¬Sprite.bit byte column := by
  -- The highest bit of a byte, moved so far to the right.
  have hmask : ∀ k : Fin 8, ((0x80 : UInt8) >>> UInt8.ofNat k.val).toNat = 2 ^ (7 - k.val) := by
    decide
  have hpos : 0 < 2 ^ (7 - column) := Nat.two_pow_pos _
  have hand : (byte &&& (0x80 : UInt8) >>> UInt8.ofNat column).toNat =
      (Sprite.bit byte column).toNat * 2 ^ (7 - column) := by
    rw [UInt8.toNat_and, hmask ⟨column, h⟩, Nat.and_two_pow, Sprite.bit]
  rw [← UInt8.toNat_inj, hand, UInt8.toNat_zero]
  cases Sprite.bit byte column <;> simp

section Rows

variable {x y : Nat}

/-- The bits of a row are drawn one by one: those that are set turn over the pixel under them. -/
theorem drawBit_eq (hx : x < 2 ^ 32) (hy : y < 2 ^ 32) {row : Nat} (hrow : row < 2 ^ 32)
    (byte : UInt8) (d : Drawing) {column : Nat} (h : column < 8) :
    drawBit x y row byte d column =
      some (if Sprite.bit byte column then d.flip (x + column, y + row) else d) := by
  rw [drawBit, distance_of_lt h, Option.bind_eq_bind, Option.bind_some]
  by_cases hbit : Sprite.bit byte column
  · have hnot : ¬byte &&& (0x80 : UInt8) >>> UInt8.ofNat column = 0 :=
      fun hzero => (and_mask_eq_zero byte h).mp hzero hbit
    simp only [if_neg hnot, if_pos hbit]
    rw [fit_of_lt (by omega), fit_of_lt (by omega)]
    exact flip_eq d (x + column) (y + row)
  · simp only [if_pos ((and_mask_eq_zero byte h).mpr hbit), if_neg hbit]
    rfl

/-- A loop none of whose passes fails is a fold. -/
theorem foldlM_eq_foldl {α β : Type} {f : β → α → Option β} {g : β → α → β} {l : List α}
    (h : ∀ a ∈ l, ∀ b, f b a = some (g b a)) (b : β) : l.foldlM f b = some (l.foldl g b) := by
  induction l generalizing b with
  | nil => rfl
  | cons a rest ih =>
    have hrest : ∀ a' ∈ rest, ∀ b, f b a' = some (g b a') :=
      fun a' ha' => h a' (List.mem_cons_of_mem a ha')
    rw [List.foldlM_cons, h a List.mem_cons_self, Option.bind_eq_bind, Option.bind_some, ih hrest,
      List.foldl_cons]

/-- The row of a sprite turns over the pixels in the columns of its set bits. -/
theorem foldlM_drawBit (hx : x < 2 ^ 32) (hy : y < 2 ^ 32) {row : Nat} (hrow : row < 2 ^ 32)
    (byte : UInt8) (d : Drawing) :
    (List.range 8).foldlM (drawBit x y row byte) d =
      some (((Sprite.columns byte).map fun column => (x + column, y + row)).foldl
        Drawing.flip d) := by
  have hpass : ∀ column ∈ List.range 8, ∀ d, drawBit x y row byte d column =
      some (if Sprite.bit byte column then d.flip (x + column, y + row) else d) :=
    fun column hcolumn d => drawBit_eq hx hy hrow byte d (List.mem_range.mp hcolumn)
  rw [foldlM_eq_foldl hpass, Sprite.columns, List.foldl_map, List.foldl_filter]

/-- Rows are drawn one below the other. -/
theorem drawRows_eq (hx : x < 2 ^ 32) (hy : y < 2 ^ 32) (rows : List UInt8) {row : Nat}
    (hrow : row + rows.length < 2 ^ 32) (d : Drawing) :
    drawRows x y d row rows =
      some ((Sprite.pixelsFrom x (y + row) rows).foldl Drawing.flip d) := by
  induction rows generalizing row d with
  | nil => rfl
  | cons byte rest ih =>
    rw [List.length_cons] at hrow
    rw [drawRows, foldlM_drawBit hx hy (by omega), Option.bind_eq_bind, Option.bind_some,
      fit_of_lt (by omega), Option.bind_eq_bind, Option.bind_some, ih (by omega),
      Sprite.pixelsFrom, List.foldl_append, Nat.add_assoc]

/-- A checked drawing is the drawing. -/
theorem draw_eq (s : Screen) (hx : x < 2 ^ 32) (hy : y < 2 ^ 32) {rows : List UInt8}
    (hrows : rows.length < 2 ^ 32) :
    draw s { x := x, y := y, rows := rows } = some (s.draw { x := x, y := y, rows := rows }) := by
  rw [draw, drawRows_eq hx hy rows (by omega)]
  rfl

end Rows

end Chip8.Checked
