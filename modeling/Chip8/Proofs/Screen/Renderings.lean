import Chip8.Proofs.Screen.Drawing
import Chip8.Screen.Picture
import Mathlib.Tactic.TFAE

/-!
# Renderings of the screen

A screen is shown as text, as marked text and as a texture. `renderings_agree` says where each of
them has each pixel, so that they show the same picture, and that the screen can be read back from
each of them. Hence any of them determines the other two.

The two texts are made of rows and the texture of pixels, so both are lists put together from parts
of one length, and `getElem?_flatMap` finds an item in such a list. `rows_eq` and `getElem?_pixels`
tie the parts to the pixels that are read.

A screen comes about by changes of its pixels (`Edit`). Each pixel goes through them as if there
were no other one (`get_editAll`).
-/

namespace Chip8.Screen

/-! ## Changes -/

/-- A change of a screen. -/
inductive Edit where
  /-- One pixel is lit or dark. -/
  | set (x y : Nat) (on : Bool)
  /-- Every pixel is dark. -/
  | clear
  /-- A sprite is drawn. -/
  | draw (sprite : Sprite)

/-- The screen after a change. -/
def edit (s : Screen) : Edit → Screen
  | .set x y on => s.set x y on
  | .clear => .blank
  | .draw sprite => (s.draw sprite).screen

/-- The screen after changes, one after the other. -/
def editAll (s : Screen) (edits : List Edit) : Screen :=
  edits.foldl edit s

/-- What a change makes of the pixel in a column and a row of the screen. -/
def Edit.pixel (x y : Nat) (on : Bool) : Edit → Bool
  | .set x' y' on' => if x = x' ∧ y = y' then on' else on
  | .clear => false
  | .draw sprite => on ^^ sprite.covers x y

section Edits

variable {x y : Nat}

/-- Every pixel of a blank screen is dark. -/
theorem get_blank : blank.get x y = false := by
  by_cases h : Shows x y
  · simp [get, blank, h, position_lt h]
  · exact get_of_not_shows _ h

/-- What a pixel of the screen is after a change depends on that pixel only. -/
theorem get_edit (s : Screen) (h : Shows x y) (e : Edit) :
    (s.edit e).get x y = e.pixel x y (s.get x y) := by
  cases e with
  | set x' y' on =>
    rw [edit, get_set, Edit.pixel]
    by_cases heq : x = x' ∧ y = y'
    · rw [if_pos heq, if_pos ⟨heq.1 ▸ heq.2 ▸ h, heq⟩]
    · rw [if_neg heq, if_neg fun hset => heq hset.2]
  | clear => exact get_blank
  | draw sprite => exact get_draw_of_shows s sprite h

/-- A pixel of the screen goes through changes as if it were the only one. -/
theorem get_editAll (s : Screen) (h : Shows x y) (edits : List Edit) :
    (s.editAll edits).get x y = edits.foldl (Edit.pixel x y) (s.get x y) := by
  induction edits generalizing s with
  | nil => rfl
  | cons e rest ih =>
    show ((s.edit e).editAll rest).get x y = _
    rw [ih, get_edit s h, List.foldl_cons]

end Edits

/-! ## Lists put together from parts of one length -/

section Parts

variable {α β : Type} {parts : List α} {f : α → List β} {size : Nat}

/-- An item of such a list is found in the part of its number. -/
theorem getElem?_flatMap (same : ∀ a ∈ parts, (f a).length = size) (k : Nat) {j : Nat}
    (hj : j < size) : (parts.flatMap f)[size * k + j]? = parts[k]?.bind fun a => (f a)[j]? := by
  induction parts generalizing k with
  | nil => rfl
  | cons a rest ih =>
    obtain ⟨hfirst, hrest⟩ := List.forall_mem_cons.mp same
    rw [List.flatMap_cons]
    cases k with
    | zero =>
      rw [Nat.mul_zero, Nat.zero_add, List.getElem?_append_left (hfirst ▸ hj)]
      rfl
    | succ k =>
      -- The items behind the first part are those of the rest, at as much less.
      have hshift : size * (k + 1) + j = size + (size * k + j) := by
        rw [Nat.mul_succ]
        omega
      rw [List.getElem?_append_right (by omega), hfirst, hshift, Nat.add_sub_cancel_left,
        ih hrest]
      rfl

/-- Such a list is as long as its parts together. -/
theorem length_flatMap (same : ∀ a ∈ parts, (f a).length = size) :
    (parts.flatMap f).length = size * parts.length := by
  rw [List.length_flatMap, List.map_congr_left same, List.map_const', List.sum_replicate_nat,
    Nat.mul_comm]

end Parts

/-! ## Rows and pixels -/

variable (s : Screen)

/-- The stored pixels of the screen are what is read of it. -/
theorem getElem?_pixels {x y : Nat} (h : Shows x y) :
    s.pixels.toList[position x y]? = some (s.get x y) := by
  rw [Vector.getElem?_toList, Vector.getElem?_eq_getElem (position_lt h), get, if_pos h,
    Vector.getElem?_eq_getElem (position_lt h), Option.getD_some]

/-- The rows of a screen hold what is read of it, column by column. -/
theorem rows_eq :
    s.rows = (List.range height).map fun y => (List.range width).map fun x => s.get x y := by
  refine List.map_congr_left fun y hy => List.ext_getElem? fun x => ?_
  rw [List.mem_range] at hy
  rw [List.getElem?_take, List.getElem?_drop, List.getElem?_map]
  by_cases hx : x < width
  · rw [if_pos hx, List.getElem?_range hx]
    exact s.getElem?_pixels ⟨hx, hy⟩
  · rw [if_neg hx, List.getElem?_eq_none (by rw [List.length_range]; exact Nat.le_of_not_lt hx)]
    rfl

/-- There are as many rows as the screen is high. -/
theorem length_rows : s.rows.length = height := by
  rw [rows_eq, List.length_map, List.length_range]

/-- Every row is as long as the screen is wide. -/
theorem length_of_mem_rows {row : List Bool} (h : row ∈ s.rows) : row.length = width := by
  rw [rows_eq] at h
  obtain ⟨y, -, rfl⟩ := List.mem_map.mp h
  rw [List.length_map, List.length_range]

/-- The rows of the screen are what is read of it. -/
theorem getElem?_rows {x y : Nat} (h : Shows x y) :
    (s.rows[y]?.bind fun row => row[x]?) = some (s.get x y) := by
  rw [rows_eq, List.getElem?_map, List.getElem?_range h.2, Option.map_some, Option.bind_some,
    List.getElem?_map, List.getElem?_range h.1, Option.map_some]

/-! ## Where the renderings have each pixel -/

section Texts

variable (lit dark : Char)

/-- The characters of a line. -/
def line (y : Nat) : List Char :=
  ((List.range width).map fun x => if s.get x y then lit else dark) ++ ['\n']

/-- A line is one character longer than a row. -/
theorem length_line (y : Nat) : (s.line lit dark y).length = 65 := by
  rw [line, List.length_append, List.length_map, List.length_range]
  rfl

/-- A picture is made of its lines. -/
theorem characters_eq : s.characters lit dark = (List.range height).flatMap (s.line lit dark) := by
  rw [characters, lines, rows_eq, List.map_map, List.flatMap_map]
  simp only [Function.comp_def, List.map_map]
  rfl

/-- The picture for a terminal, line by line. -/
theorem terminalText_eq : s.terminalText =
    String.ofList ((List.range 32).flatMap fun y =>
      ((List.range 64).map fun x => if s.get x y then '*' else ' ') ++ ['\n']) := by
  rw [terminalText, characters_eq]
  rfl

/-- A picture has as many characters as its lines together. -/
theorem length_characters : (s.characters lit dark).length = 2080 := by
  rw [characters_eq, length_flatMap fun y _ => s.length_line lit dark y, List.length_range]
  rfl

/-- A character of a line is found behind the lines above it. -/
theorem getElem?_characters {x y : Nat} (hx : x < 65) (hy : y < height) :
    (s.characters lit dark)[65 * y + x]? = (s.line lit dark y)[x]? := by
  rw [characters_eq, getElem?_flatMap (fun y _ => s.length_line lit dark y) y hx,
    List.getElem?_range hy]
  rfl

/-- Each pixel has its place in its line. -/
theorem getElem?_characters_of_shows {x y : Nat} (h : Shows x y) :
    (s.characters lit dark)[65 * y + x]? = some (if s.get x y then lit else dark) := by
  have hx : x < ((List.range width).map fun x => if s.get x y then lit else dark).length := by
    rw [List.length_map, List.length_range]
    exact h.1
  rw [s.getElem?_characters lit dark (Nat.lt_succ_of_lt h.1) h.2, line,
    List.getElem?_append_left hx, List.getElem?_map, List.getElem?_range h.1]
  rfl

/-- A line break ends each line. -/
theorem getElem?_characters_width {y : Nat} (hy : y < height) :
    (s.characters lit dark)[65 * y + 64]? = some '\n' := by
  have hlength : ((List.range width).map fun x => if s.get x y then lit else dark).length = 64 := by
    rw [List.length_map, List.length_range]
    rfl
  rw [s.getElem?_characters lit dark (by decide) hy, line,
    List.getElem?_append_right (Nat.le_of_eq hlength), hlength]
  rfl

/-- A picture in other characters is the same picture. -/
theorem map_characters (f : Char → Char) (hbreak : f '\n' = '\n') :
    (s.characters lit dark).map f = s.characters (f lit) (f dark) := by
  rw [characters, characters, lines, lines, List.map_flatMap, List.flatMap_map, List.flatMap_map]
  simp only [List.map_append, List.map_map, Function.comp_def, apply_ite f, List.map_cons, hbreak,
    List.map_nil]

end Texts

/-- The bytes of a pixel in a texture. -/
theorem length_texel (on : Bool) :
    (List.replicate 3 (if on then (255 : UInt8) else 0)).length = 3 :=
  List.length_replicate

/-- A texture has three bytes for each pixel. -/
theorem length_texture : s.texture.length = 6144 := by
  rw [texture, length_flatMap fun on _ => length_texel on, Vector.length_toList]

/-- Each pixel has its place in the texture. -/
theorem getElem?_texture {x y c : Nat} (h : Shows x y) (hc : c < 3) :
    s.texture[3 * position x y + c]? = some (if s.get x y then 255 else 0) := by
  rw [texture, getElem?_flatMap (fun on _ => length_texel on) _ hc, s.getElem?_pixels h,
    Option.bind_some, List.getElem?_replicate_of_lt hc]

/-! ## Reading a rendering back -/

/-- The screen with given pixels. -/
def ofPixels (lit : Nat → Nat → Bool) : Screen :=
  ⟨.ofFn fun k => lit (k % width) (k / width)⟩

/-- The screen that a text shows, by the character for a lit pixel. -/
def ofText (lit : Char) (text : String) : Screen :=
  ofPixels fun x y => text.toList[65 * y + x]? == some lit

/-- The screen that a texture shows. -/
def ofTexture (bytes : List UInt8) : Screen :=
  ofPixels fun x y => bytes[3 * position x y]? == some 255

/-- The given pixels are on the screen. -/
theorem get_ofPixels (lit : Nat → Nat → Bool) {x y : Nat} (h : Shows x y) :
    (ofPixels lit).get x y = lit x y := by
  have hlt := position_lt h
  obtain ⟨hx, hy⟩ : position x y % width = x ∧ position x y / width = y := by
    simp only [Shows, position, width, height] at *
    omega
  rw [get, if_pos h, ofPixels, Vector.getElem?_eq_getElem hlt, Vector.getElem_ofFn,
    Option.getD_some, hx, hy]

/-- A picture shows the screen that it was made of. -/
theorem ofText_characters {lit dark : Char} (differ : dark ≠ lit) :
    ofText lit (String.ofList (s.characters lit dark)) = s := by
  refine ext_of_get fun x y h => ?_
  rw [ofText, get_ofPixels _ h, String.toList_ofList, s.getElem?_characters_of_shows lit dark h]
  cases s.get x y <;> simp [differ]

/-- A texture shows the screen that it was made of. -/
theorem ofTexture_texture : ofTexture s.texture = s := by
  refine ext_of_get fun x y h => ?_
  have hfirst := s.getElem?_texture h (show 0 < 3 by decide)
  rw [Nat.add_zero] at hfirst
  rw [ofTexture, get_ofPixels _ h, hfirst]
  cases s.get x y <;> rfl

/-! ## The same picture -/

/-- The renderings of every screen show the same picture. Both texts have 32 lines of 64 characters
and a line break, and the texture has 6144 bytes; the characters and the three bytes of each pixel
say whether it is lit. The screen can be read back from each of them, so two screens of which one
rendering is the same are the same, and so are the other two. Whatever changes led to a screen, what
is read of it is what is stored and what is in its rows, each pixel goes through the changes on its
own, and off the screen everything is dark. -/
theorem renderings_agree :
    (s.terminalText.toList.length = 32 * 65 ∧
      (∀ y, y < 32 → s.terminalText.toList[65 * y + 64]? = some '\n') ∧
      ∀ x y, x < 64 → y < 32 →
        s.terminalText.toList[65 * y + x]? = some (if s.get x y then '*' else ' ')) ∧
    s.markedText.toList =
      s.terminalText.toList.map (fun c => if c = '*' then '#' else if c = ' ' then '.' else c) ∧
    (s.texture.length = 6144 ∧
      ∀ x y c, x < 64 → y < 32 → c < 3 →
        s.texture[3 * (64 * y + x) + c]? = some (if s.get x y then 255 else 0)) ∧
    (ofText '*' s.terminalText = s ∧ ofText '#' s.markedText = s ∧ ofTexture s.texture = s) ∧
    (∀ t : Screen, [s = t, s.terminalText = t.terminalText, s.markedText = t.markedText,
      s.texture = t.texture].TFAE) ∧
    ∀ edits : List Edit,
      let drawn := s.editAll edits
      drawn.pixels.toList.length = 2048 ∧ drawn.rows.length = 32 ∧
      (∀ row ∈ drawn.rows, row.length = 64) ∧
      (∀ x y, x < 64 → y < 32 →
        drawn.get x y = edits.foldl (Edit.pixel x y) (s.get x y) ∧
          drawn.pixels.toList[64 * y + x]? = some (drawn.get x y) ∧
          (drawn.rows[y]?.bind fun row => row[x]?) = some (drawn.get x y)) ∧
      ∀ x y, 64 ≤ x ∨ 32 ≤ y → drawn.get x y = false := by
  have hposition : ∀ x y, position x y = 64 * y + x := fun x y => by
    rw [position, Nat.mul_comm]
    rfl
  have hterminal : ∀ t : Screen, ofText '*' t.terminalText = t :=
    fun t => t.ofText_characters (by decide)
  have hmarked : ∀ t : Screen, ofText '#' t.markedText = t :=
    fun t => t.ofText_characters (by decide)
  refine ⟨⟨?_, fun y hy => ?_, fun x y hx hy => ?_⟩, ?_, ⟨s.length_texture, ?_⟩,
    ⟨hterminal s, hmarked s, s.ofTexture_texture⟩, fun t => ?_, fun edits => ?_⟩
  · rw [terminalText, String.toList_ofList]
    exact s.length_characters '*' ' '
  · rw [terminalText, String.toList_ofList]
    exact s.getElem?_characters_width '*' ' ' hy
  · rw [terminalText, String.toList_ofList]
    exact s.getElem?_characters_of_shows '*' ' ' ⟨hx, hy⟩
  · rw [terminalText, markedText, String.toList_ofList, String.toList_ofList,
      map_characters _ _ _ _ (by decide)]
    rfl
  · intro x y c hx hy hc
    rw [← hposition]
    exact s.getElem?_texture ⟨hx, hy⟩ hc
  · -- Who reads a rendering back has the screen, and with it the other renderings.
    tfae_have 1 → 2 := fun h => by rw [h]
    tfae_have 2 → 3 := fun h => by rw [← hterminal s, h, hterminal]
    tfae_have 3 → 4 := fun h => by rw [← hmarked s, h, hmarked]
    tfae_have 4 → 1 := fun h => by rw [← s.ofTexture_texture, h, t.ofTexture_texture]
    tfae_finish
  · intro drawn
    refine ⟨drawn.pixels.length_toList, drawn.length_rows, fun row => drawn.length_of_mem_rows,
      fun x y hx hy => ⟨s.get_editAll ⟨hx, hy⟩ edits, ?_, drawn.getElem?_rows ⟨hx, hy⟩⟩,
      fun x y hoff => drawn.get_of_not_shows fun h => ?_⟩
    · rw [← hposition]
      exact drawn.getElem?_pixels ⟨hx, hy⟩
    · obtain hx | hy := hoff
      · exact absurd h.1 (Nat.not_lt_of_le hx)
      · exact absurd h.2 (Nat.not_lt_of_le hy)

/-- A sprite that is cut off at the right, one of whose pixels is turned off again. The pixel that
stays at the edge is where it belongs in every rendering, the one beyond the edge is dark, and each
rendering differs from that of a blank screen. -/
theorem edge_pixel_in_every_rendering :
    let edits : List Edit := [.draw ⟨62, 30, [0xE0, 0x60]⟩, .set 64 0 true, .set 63 31 false]
    let s := blank.editAll edits
    ((63 < 64 ∧ 30 < 32 ∧ 2 < 3) ∧ s.get 63 30 = true ∧ s.get 63 31 = false) ∧
    (s.terminalText.toList[65 * 30 + 63]? = some '*' ∧
      s.terminalText.toList[65 * 30 + 64]? = some '\n' ∧
      s.terminalText.toList[65 * 31 + 63]? = some ' ') ∧
    (s.texture[3 * (64 * 30 + 63) + 2]? = some 255 ∧
      s.pixels.toList[64 * 30 + 63]? = some true ∧
      (s.rows[30]?.bind fun row => row[63]?) = some true) ∧
    (64 ≤ 64 ∨ 32 ≤ 30) ∧ s.get 64 30 = false ∧
    s.terminalText ≠ blank.terminalText ∧ s.markedText ≠ blank.markedText ∧
      s.texture ≠ blank.texture := by
  intro edits s
  obtain ⟨⟨-, hbreaks, hstars⟩, -, ⟨-, hbytes⟩, -, hsame, -⟩ := renderings_agree s
  obtain ⟨-, -, -, -, -, hchanges⟩ := renderings_agree blank
  obtain ⟨-, -, -, hread, hoff⟩ := hchanges edits
  obtain ⟨hlit, hpixel, hrow⟩ := hread 63 30 (by decide) (by decide)
  obtain ⟨hdark, -, -⟩ := hread 63 31 (by decide) (by decide)
  rw [get_blank] at hlit hdark
  have hlit : s.get 63 30 = true := hlit.trans (by decide)
  have hdark : s.get 63 31 = false := hdark.trans (by decide)
  have hstar := hstars 63 30 (by decide) (by decide)
  have hblank := hstars 63 31 (by decide) (by decide)
  have hbyte := hbytes 63 30 2 (by decide) (by decide) (by decide)
  rw [hlit, if_pos rfl] at hstar hbyte
  rw [hdark, if_neg Bool.false_ne_true] at hblank
  rw [show blank.editAll edits = s from rfl, hlit] at hpixel hrow
  have hne : s ≠ blank := fun h => by
    rw [h, get_blank] at hlit
    cases hlit
  exact ⟨⟨by decide, hlit, hdark⟩, ⟨hstar, hbreaks 30 (by decide), hblank⟩, ⟨hbyte, hpixel, hrow⟩,
    .inl (Nat.le_refl 64), hoff 64 30 (.inl (Nat.le_refl 64)),
    mt ((hsame blank).out 1 0).mp hne, mt ((hsame blank).out 2 0).mp hne,
    mt ((hsame blank).out 3 0).mp hne⟩

end Chip8.Screen
