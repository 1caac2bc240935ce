import Chip8.Screen.Sprite
import Mathlib.Data.List.Nodup

/-!
# What drawing a sprite comes to

Drawing turns over the pixels under the set bits of a sprite one after the other. Seen from the
result, each pixel of the screen is its old value, turned over if the sprite covers it
(`get_draw`). This holds because no pixel is under two bits (`nodup_pixels`), so that a pixel which
was turned over stays so: the two lemmas on the loop, `get_foldl_flip` and `collided_foldl_flip`,
are inductions on a list of different pixels.

The rest follows from the pixels. Those that the drawing turned off are lit before and dark after
it (`turnedOff`), and it collided if there are any (`collided_draw`). How many pixels are lit is
found by counting: a pixel turned on adds one, a pixel turned off takes one away, and each of them
is under one set bit on the screen (`litCount_draw`).
-/

namespace Chip8

/-! ## The pixels of a screen -/

namespace Screen

/-- The pixels on the screen, row by row. -/
def area : List (Nat × Nat) :=
  (List.range 2048).map fun k => (k % width, k / width)

/-- The pixels that are lit on a screen and dark on a later one. -/
def turnedOff (before after : Screen) : List (Nat × Nat) :=
  area.filter fun pixel => before.get pixel.1 pixel.2 && !after.get pixel.1 pixel.2

/-- A position has the column and the row that it is made of. -/
theorem position_mod_div (k : Nat) : position (k % width) (k / width) = k := by
  simp only [position, width]
  omega

/-- The area of the screen is made of the pixels on it. -/
theorem mem_area {x y : Nat} : (x, y) ∈ area ↔ Shows x y := by
  rw [area, List.mem_map]
  constructor
  · rintro ⟨k, hk, hpixel⟩
    rw [List.mem_range] at hk
    simp only [Prod.mk.injEq, Shows, width, height] at *
    omega
  · intro h
    refine ⟨position x y, List.mem_range.mpr (position_lt h), ?_⟩
    simp only [Prod.mk.injEq, Shows, position, width, height] at *
    omega

/-- No pixel is listed twice. -/
theorem nodup_area : area.Nodup := by
  refine List.nodup_range.map fun k l h => ?_
  rw [Prod.mk.injEq] at h
  rw [← position_mod_div k, ← position_mod_div l, h.1, h.2]

/-- A pixel that reads lit is on the screen. -/
theorem shows_of_get {s : Screen} {x y : Nat} (h : s.get x y = true) : Shows x y := by
  by_contra hnot
  rw [get_of_not_shows s hnot] at h
  cases h

/-- The pixels that were turned off read lit before and dark after. -/
theorem mem_turnedOff {before after : Screen} {x y : Nat} :
    (x, y) ∈ before.turnedOff after ↔ before.get x y = true ∧ after.get x y = false := by
  rw [turnedOff, List.mem_filter, mem_area, Bool.and_eq_true, Bool.not_eq_true']
  exact ⟨fun h => h.2, fun h => ⟨shows_of_get h.1, h⟩⟩

/-- The stored pixels are those of the area in turn. -/
theorem toList_pixels (s : Screen) :
    s.pixels.toList = area.map fun pixel => s.get pixel.1 pixel.2 := by
  apply List.ext_getElem
  · simp [area]
  · intro k hk _
    have hlt : k < 2048 := by simpa using hk
    have hshows : Shows (k % width) (k / width) := by
      simp only [Shows, width, height]
      omega
    simp [area, get, hshows, position_mod_div, hlt]

/-- The lit pixels can be counted on the area. -/
theorem litCount_eq_countP (s : Screen) :
    s.litCount = area.countP fun pixel => s.get pixel.1 pixel.2 := by
  rw [litCount, toList_pixels, List.count, List.countP_map]
  simp only [Function.comp_def, beq_true]

end Screen

/-! ## The bits of a sprite -/

namespace Sprite

/-- Whether a sprite has a set bit over a pixel. -/
def covers (sprite : Sprite) (x y : Nat) : Bool :=
  if sprite.x ≤ x ∧ x < sprite.x + 8 ∧ sprite.y ≤ y ∧ y < sprite.y + sprite.rows.length then
    bit (sprite.rows[y - sprite.y]?.getD 0) (x - sprite.x)
  else false

/-- How many set bits of rows drawn at a place are over pixels of the screen. -/
def bitsShownFrom (x y : Nat) : List UInt8 → Nat
  | [] => 0
  | row :: rest =>
    (List.range 8).countP (fun column => bit row column && decide (Screen.Shows (x + column) y)) +
      bitsShownFrom x (y + 1) rest

/-- How many set bits of a sprite are over pixels of the screen. -/
def bitsShown (sprite : Sprite) : Nat :=
  bitsShownFrom sprite.x sprite.y sprite.rows

/-- The columns of a row that are drawn are those of its set bits. -/
theorem mem_columns {row : UInt8} {column : Nat} :
    column ∈ columns row ↔ column < 8 ∧ bit row column = true := by
  rw [columns, List.mem_filter, List.mem_range]

/-- A pixel is turned over exactly when a set bit of one of the rows is over it. -/
theorem mem_pixelsFrom {x y : Nat} {rows : List UInt8} {px py : Nat} :
    (px, py) ∈ pixelsFrom x y rows ↔ ∃ k row column, rows[k]? = some row ∧ column < 8 ∧
      bit row column = true ∧ px = x + column ∧ py = y + k := by
  induction rows generalizing y with
  | nil => simp [pixelsFrom]
  | cons first rest ih =>
    rw [pixelsFrom, List.mem_append, ih, List.mem_map]
    constructor
    · rintro (⟨column, hcolumn, hpixel⟩ | ⟨k, row, column, hrow, hlt, hbit, hpx, hpy⟩)
      · obtain ⟨hlt, hbit⟩ := mem_columns.mp hcolumn
        cases hpixel
        exact ⟨0, first, column, rfl, hlt, hbit, rfl, rfl⟩
      · exact ⟨k + 1, row, column, hrow, hlt, hbit, hpx, by omega⟩
    · rintro ⟨k, row, column, hrow, hlt, hbit, hpx, hpy⟩
      cases k with
      | zero =>
        cases hrow
        exact .inl ⟨column, mem_columns.mpr ⟨hlt, hbit⟩, by rw [hpx, hpy]; rfl⟩
      | succ k => exact .inr ⟨k, row, column, hrow, hlt, hbit, hpx, by omega⟩

/-- No pixel is under two bits of a sprite. -/
theorem nodup_pixelsFrom (x y : Nat) (rows : List UInt8) : (pixelsFrom x y rows).Nodup := by
  induction rows generalizing y with
  | nil => exact List.nodup_nil
  | cons row rest ih =>
    have hcolumns : (columns row).Nodup := List.nodup_range.filter _
    have hrow : ((columns row).map fun column => (x + column, y)).Nodup := by
      refine hcolumns.map fun column column' h => ?_
      rw [Prod.mk.injEq] at h
      omega
    refine List.nodup_append.mpr ⟨hrow, ih (y + 1), ?_⟩
    -- The rows behind the first are drawn lower.
    rintro ⟨px, py⟩ hfirst ⟨px', py'⟩ hlater heq
    obtain ⟨column, -, hpixel⟩ := List.mem_map.mp hfirst
    obtain ⟨k, -, -, -, -, -, -, hpy⟩ := mem_pixelsFrom.mp hlater
    simp only [Prod.mk.injEq] at hpixel heq
    omega

section Pixels

variable (sprite : Sprite)

/-- A sprite turns over the pixels that it covers. -/
theorem mem_pixels {x y : Nat} : (x, y) ∈ sprite.pixels ↔ sprite.covers x y = true := by
  rw [pixels, mem_pixelsFrom, covers]
  constructor
  · rintro ⟨k, row, column, hrow, hlt, hbit, rfl, rfl⟩
    obtain ⟨hk, -⟩ := List.getElem?_eq_some_iff.mp hrow
    rw [if_pos (by omega), Nat.add_sub_cancel_left, Nat.add_sub_cancel_left, hrow]
    exact hbit
  · intro h
    split at h
    · rename_i hin
      have hk : y - sprite.y < sprite.rows.length := by omega
      rw [List.getElem?_eq_getElem hk] at h
      exact ⟨y - sprite.y, _, x - sprite.x, List.getElem?_eq_getElem hk, by omega, h, by omega,
        by omega⟩
    · cases h

/-- No pixel is turned over twice. -/
theorem nodup_pixels : sprite.pixels.Nodup :=
  nodup_pixelsFrom _ _ _

/-- The set bits on the screen can be counted on the pixels under them. -/
theorem bitsShown_eq_countP :
    sprite.bitsShown = sprite.pixels.countP fun pixel => decide (Screen.Shows pixel.1 pixel.2) := by
  suffices hfrom : ∀ (rows : List UInt8) (x y : Nat), bitsShownFrom x y rows =
      (pixelsFrom x y rows).countP fun pixel => decide (Screen.Shows pixel.1 pixel.2) from
    hfrom _ _ _
  intro rows x
  induction rows with
  | nil => exact fun y => rfl
  | cons row rest ih =>
    intro y
    rw [bitsShownFrom, pixelsFrom, List.countP_append, ← ih, columns, List.countP_map,
      List.countP_filter]
    simp only [Function.comp_def, Bool.and_comm]

/-- Each set bit on the screen is over one of the pixels that the sprite covers there. -/
theorem bitsShown_eq_countP_area :
    sprite.bitsShown = Screen.area.countP fun pixel => sprite.covers pixel.1 pixel.2 := by
  rw [bitsShown_eq_countP, List.countP_eq_length_filter, List.countP_eq_length_filter]
  apply List.Perm.length_eq
  rw [List.perm_ext_iff_of_nodup (sprite.nodup_pixels.filter _) (Screen.nodup_area.filter _)]
  rintro ⟨x, y⟩
  rw [List.mem_filter, List.mem_filter, mem_pixels, Screen.mem_area, decide_eq_true_eq]
  exact And.comm

end Pixels

end Sprite

/-! ## Drawing -/

section Loop

variable {pixels : List (Nat × Nat)}

/-- Turning over different pixels changes those of them that are on the screen, and no others. -/
theorem get_foldl_flip (different : pixels.Nodup) (d : Drawing) (x y : Nat) :
    (pixels.foldl Drawing.flip d).screen.get x y =
      (d.screen.get x y ^^ decide (Screen.Shows x y ∧ (x, y) ∈ pixels)) := by
  induction pixels generalizing d with
  | nil => simp
  | cons first rest ih =>
    obtain ⟨hfirst, hrest⟩ := List.nodup_cons.mp different
    rw [List.foldl_cons, ih hrest, Drawing.flip, Screen.get_flip]
    by_cases heq : (x, y) = first
    · subst heq
      by_cases hshows : Screen.Shows x y <;> simp [hshows, hfirst]
    · have hne : ¬(x = first.1 ∧ y = first.2) := fun h => heq (Prod.ext h.1 h.2)
      simp only [hne, and_false, if_false, List.mem_cons, heq, false_or]

/-- Turning over different pixels collides exactly when one of them was lit. -/
theorem collided_foldl_flip (different : pixels.Nodup) (d : Drawing) :
    (pixels.foldl Drawing.flip d).collided = true ↔
      d.collided = true ∨ ∃ pixel ∈ pixels, d.screen.get pixel.1 pixel.2 = true := by
  induction pixels generalizing d with
  | nil => simp
  | cons first rest ih =>
    obtain ⟨hfirst, hrest⟩ := List.nodup_cons.mp different
    -- The pixels to come are not the one that is turned over first.
    have hsame : ∀ pixel ∈ rest,
        (d.flip first).screen.get pixel.1 pixel.2 = d.screen.get pixel.1 pixel.2 := by
      intro pixel hpixel
      rw [Drawing.flip, Screen.get_flip, if_neg]
      rintro ⟨-, hx, hy⟩
      exact hfirst (Prod.ext hx hy ▸ hpixel)
    have hlater : (∃ pixel ∈ rest, (d.flip first).screen.get pixel.1 pixel.2 = true) ↔
        ∃ pixel ∈ rest, d.screen.get pixel.1 pixel.2 = true :=
      exists_congr fun pixel => and_congr_right fun hpixel => by rw [hsame pixel hpixel]
    rw [List.foldl_cons, ih hrest, hlater, Drawing.flip, Bool.or_eq_true, List.exists_mem_cons_iff,
      or_assoc]

end Loop

namespace Screen

variable (s : Screen) (sprite : Sprite)

/-- Drawing turns over the pixels of the screen that the sprite covers, and no others. -/
theorem get_draw (x y : Nat) :
    (s.draw sprite).screen.get x y =
      (s.get x y ^^ (decide (Shows x y) && sprite.covers x y)) := by
  rw [draw, get_foldl_flip sprite.nodup_pixels]
  simp only [sprite.mem_pixels, Bool.decide_and, Bool.decide_eq_true]

/-- A pixel on the screen is turned over if the sprite covers it. -/
theorem get_draw_of_shows {x y : Nat} (h : Shows x y) :
    (s.draw sprite).screen.get x y = (s.get x y ^^ sprite.covers x y) := by
  rw [get_draw, decide_eq_true h, Bool.true_and]

/-- A pixel is turned off exactly when it was lit and the sprite covers it. -/
theorem get_and_not_get_draw (x y : Nat) :
    (s.get x y && !(s.draw sprite).screen.get x y) = (s.get x y && sprite.covers x y) := by
  rw [get_draw]
  cases hlit : s.get x y with
  | false => rfl
  | true => simp [shows_of_get hlit]

/-- A drawing collides exactly when it turns a pixel off. -/
theorem collided_draw :
    (s.draw sprite).collided = decide (s.turnedOff (s.draw sprite).screen ≠ []) := by
  have hoff {x y : Nat} : (x, y) ∈ s.turnedOff (s.draw sprite).screen ↔
      s.get x y = true ∧ (x, y) ∈ sprite.pixels := by
    rw [mem_turnedOff, sprite.mem_pixels, ← Bool.and_eq_true, ← get_and_not_get_draw,
      Bool.and_eq_true, Bool.not_eq_true']
  rw [Bool.eq_iff_iff, decide_eq_true_eq, draw, collided_foldl_flip sprite.nodup_pixels]
  constructor
  · rintro (h | ⟨⟨x, y⟩, hpixel, hlit⟩)
    · cases h
    · exact List.ne_nil_of_mem (hoff.mpr ⟨hlit, hpixel⟩)
  · intro h
    obtain ⟨⟨x, y⟩, hpixel⟩ := List.exists_mem_of_ne_nil _ h
    obtain ⟨hlit, hmem⟩ := hoff.mp hpixel
    exact .inr ⟨(x, y), hmem, hlit⟩

/-- What is in one of two classes only and twice what is in both are the classes together. -/
theorem countP_xor_add {α : Type} (f g : α → Bool) (l : List α) :
    l.countP (fun a => f a ^^ g a) + 2 * l.countP (fun a => f a && g a) =
      l.countP f + l.countP g := by
  induction l with
  | nil => rfl
  | cons a rest ih =>
    simp only [List.countP_cons]
    cases f a <;> cases g a <;> simp <;> omega

/-- The pixels that are lit after drawing are those that were and the set bits of the sprite on the
screen, without the pixels that were turned off, which are counted among both. -/
theorem litCount_draw :
    (s.draw sprite).screen.litCount + 2 * (s.turnedOff (s.draw sprite).screen).length =
      s.litCount + sprite.bitsShown := by
  have hlit : (s.draw sprite).screen.litCount =
      area.countP fun pixel => s.get pixel.1 pixel.2 ^^ sprite.covers pixel.1 pixel.2 := by
    rw [litCount_eq_countP]
    refine List.countP_congr fun pixel hpixel => ?_
    rw [get_draw_of_shows s sprite (mem_area.mp hpixel)]
  have hoff : (s.turnedOff (s.draw sprite).screen).length =
      area.countP fun pixel => s.get pixel.1 pixel.2 && sprite.covers pixel.1 pixel.2 := by
    rw [turnedOff, ← List.countP_eq_length_filter]
    simp only [get_and_not_get_draw]
  rw [hlit, hoff, litCount_eq_countP, sprite.bitsShown_eq_countP_area, countP_xor_add]

end Screen

end Chip8
