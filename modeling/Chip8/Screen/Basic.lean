/-!
# The screen

64 by 32 pixels that are lit or dark, stored row by row from the top left, so that the pixel in
column `x` of row `y` has position `64 * y + x`. Reading a pixel outside the screen finds it dark,
and writing one has no effect. `get_set` says what a write does to every pixel, and
`ext_of_get` that the pixels on the screen are all there is.
-/

namespace Chip8

/-- The pixels of the screen. -/
structure Screen where
  /-- Whether the pixel at a position is lit. -/
  pixels : Vector Bool 2048
  deriving DecidableEq

namespace Screen

/-- How many columns there are. -/
def width : Nat := 64

/-- How many rows there are. -/
def height : Nat := 32

/-- A screen with every pixel dark. -/
def blank : Screen :=
  ⟨Vector.replicate 2048 false⟩

/-- A pixel is on the screen when its column and its row are. -/
def Shows (x y : Nat) : Prop := x < width ∧ y < height

instance (x y : Nat) : Decidable (Shows x y) :=
  inferInstanceAs (Decidable (x < width ∧ y < height))

/-- The position of a pixel on the screen. -/
def position (x y : Nat) : Nat :=
  y * width + x

/-- Whether a pixel is lit. -/
def get (s : Screen) (x y : Nat) : Bool :=
  if Shows x y then s.pixels[position x y]?.getD false else false

/-- The screen with one pixel lit or dark. -/
def set (s : Screen) (x y : Nat) (on : Bool) : Screen :=
  if Shows x y then ⟨s.pixels.setIfInBounds (position x y) on⟩ else s

/-- The screen with one pixel turned over. -/
def flip (s : Screen) (x y : Nat) : Screen :=
  s.set x y (!s.get x y)

/-- How many pixels are lit. -/
def litCount (s : Screen) : Nat :=
  s.pixels.toList.count true

/-- The rows from top to bottom. -/
def rows (s : Screen) : List (List Bool) :=
  (List.range height).map fun y => (s.pixels.toList.drop (y * width)).take width

/-- A position on the screen is within the stored pixels. -/
theorem position_lt {x y : Nat} (h : Shows x y) : position x y < 2048 := by
  simp only [Shows, width, height, position] at *
  omega

/-- Different pixels on the screen have different positions. -/
theorem position_inj {x y x' y' : Nat} (h : Shows x y) (h' : Shows x' y') :
    position x y = position x' y' ↔ x = x' ∧ y = y' := by
  simp only [Shows, width, height, position] at *
  omega

/-- A pixel off the screen reads dark. -/
theorem get_of_not_shows (s : Screen) {x y : Nat} (h : ¬Shows x y) : s.get x y = false :=
  if_neg h

/-- A write changes the pixel that it names, if that is on the screen, and no other. -/
theorem get_set (s : Screen) (x y : Nat) (on : Bool) (x' y' : Nat) :
    (s.set x y on).get x' y' =
      if Shows x y ∧ x' = x ∧ y' = y then on else s.get x' y' := by
  by_cases h : Shows x y
  · by_cases h' : Shows x' y'
    · have hlt := position_lt h
      by_cases e : x' = x ∧ y' = y
      · obtain ⟨rfl, rfl⟩ := e
        simp [set, get, h, hlt]
      · have hne : position x y ≠ position x' y' := fun hp =>
          e ⟨((position_inj h h').mp hp).1.symm, ((position_inj h h').mp hp).2.symm⟩
        simp [set, get, h, h', e, Vector.getElem?_setIfInBounds_ne hne]
    · have e : ¬(Shows x y ∧ x' = x ∧ y' = y) := fun ⟨_, hx, hy⟩ => h' (hx ▸ hy ▸ h)
      rw [if_neg e, get_of_not_shows _ h', get_of_not_shows _ h']
  · simp [set, h]

/-- Two screens that agree on every pixel are the same screen. -/
theorem ext_of_get {s t : Screen} (h : ∀ x y, Shows x y → s.get x y = t.get x y) : s = t := by
  obtain ⟨p⟩ := s
  obtain ⟨q⟩ := t
  congr 1
  apply Vector.ext
  intro i hi
  have hs : Shows (i % 64) (i / 64) := by
    simp only [Shows, width, height]
    omega
  have hp : position (i % 64) (i / 64) = i := by
    simp only [position, width]
    omega
  have := h _ _ hs
  simpa [get, hs, hp, hi] using this

/-- Turning a pixel over changes that pixel, if it is on the screen, and no other. -/
theorem get_flip (s : Screen) (x y x' y' : Nat) :
    (s.flip x y).get x' y' =
      if Shows x y ∧ x' = x ∧ y' = y then !s.get x' y' else s.get x' y' := by
  rw [flip, get_set]
  split
  · rename_i h
    rw [h.2.1, h.2.2]
  · rfl

end Screen

end Chip8
