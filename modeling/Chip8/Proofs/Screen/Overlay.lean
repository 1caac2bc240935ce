import Chip8.Proofs.Screen.Drawing

/-!
# Sprites drawn over one another

A sprite turns over the same pixels whatever is on the screen. So it does not matter for the picture
which of two sprites is drawn first (`draw_comm`), and a sprite that is drawn twice leaves no trace
(`draw_draw`). Both follow pixel by pixel from `get_draw`. For lists of sprites the order does not
matter either (`drawAll_perm`), and a list that is drawn twice leaves no trace (`drawAll_drawAll`).
Rows can be drawn in parts, each below the one before (`draw_append`). Whether a drawing collides
does depend on what is on the screen, and so on the order.
-/

namespace Chip8.Screen

/-- The screen after sprites were drawn on it, one after the other. -/
def drawAll (s : Screen) (sprites : List Sprite) : Screen :=
  sprites.foldl (fun s sprite => (s.draw sprite).screen) s

section Pairs

variable (s : Screen) (first second : Sprite)

/-- Two sprites leave the same picture in either order. -/
theorem draw_comm :
    ((s.draw first).screen.draw second).screen = ((s.draw second).screen.draw first).screen := by
  refine ext_of_get fun x y _ => ?_
  rw [get_draw, get_draw, get_draw, get_draw]
  exact Bool.xor_right_comm ..

/-- A sprite drawn a second time takes back what it did the first time. -/
theorem draw_draw : ((s.draw first).screen.draw first).screen = s := by
  refine ext_of_get fun x y _ => ?_
  rw [get_draw, get_draw, Bool.xor_assoc, Bool.xor_self, Bool.xor_false]

end Pairs

section Lists

variable (s : Screen) {sprites other : List Sprite}

/-- Sprites leave the same picture in any order. -/
theorem drawAll_perm (h : sprites.Perm other) : s.drawAll sprites = s.drawAll other :=
  h.foldl_eq' (fun first _ second _ t => t.draw_comm first second) s

/-- A sprite that is drawn before others may be drawn behind them. -/
theorem drawAll_draw (sprite : Sprite) (sprites : List Sprite) :
    (s.draw sprite).screen.drawAll sprites = ((s.drawAll sprites).draw sprite).screen := by
  have hmoved := s.drawAll_perm (List.perm_append_singleton sprite sprites).symm
  rw [drawAll, drawAll, List.foldl_append] at hmoved
  exact hmoved

/-- A list of sprites drawn a second time takes back what it did the first time. -/
theorem drawAll_drawAll (sprites : List Sprite) : (s.drawAll sprites).drawAll sprites = s := by
  induction sprites generalizing s with
  | nil => rfl
  | cons sprite rest ih =>
    calc (s.drawAll (sprite :: rest)).drawAll (sprite :: rest)
        = (((s.draw sprite).screen.drawAll rest).draw sprite).screen.drawAll rest := rfl
      _ = (((s.draw sprite).screen.draw sprite).screen.drawAll rest).drawAll rest := by
          rw [← drawAll_draw]
      _ = (s.drawAll rest).drawAll rest := by rw [draw_draw]
      _ = s := ih s

end Lists

/-- Turning over pixels after a collision finds the same collisions as it does on a new drawing. -/
theorem foldl_flip_eq (pixels : List (Nat × Nat)) (s : Screen) (collided : Bool) :
    pixels.foldl Drawing.flip ⟨s, collided⟩ =
      { screen := (pixels.foldl Drawing.flip ⟨s, false⟩).screen
        collided := collided || (pixels.foldl Drawing.flip ⟨s, false⟩).collided } := by
  induction pixels generalizing s collided with
  | nil => simp
  | cons pixel rest ih =>
    simp only [List.foldl_cons, Drawing.flip, Bool.false_or]
    rw [ih _ (collided || s.get pixel.1 pixel.2), ih _ (s.get pixel.1 pixel.2), Bool.or_assoc]

/-- Rows drawn in two parts leave the same picture, and collide if one of the parts does. -/
theorem draw_append (s : Screen) (x y : Nat) (upper lower : List UInt8) :
    let first := s.draw { x := x, y := y, rows := upper }
    let second := first.screen.draw { x := x, y := y + upper.length, rows := lower }
    s.draw { x := x, y := y, rows := upper ++ lower } =
      { screen := second.screen, collided := first.collided || second.collided } := by
  intro first second
  rw [draw, Sprite.pixels, Sprite.pixelsFrom_append, List.foldl_append]
  exact foldl_flip_eq _ first.screen first.collided

/-- A single pixel that is drawn twice collides the second time only, so that it depends on the
order which of two equal sprites collides. -/
theorem collided_depends_on_order :
    (blank.draw { x := 0, y := 0, rows := [0x80] }).collided ≠
      ((blank.draw { x := 0, y := 0, rows := [0x80] }).screen.draw
        { x := 0, y := 0, rows := [0x80] }).collided := by
  decide +kernel

/-- The picture that sprites leave does not depend on their order. Sprites that are drawn again, in
any order, leave the picture that there was before them. Rows that are drawn in two parts, one below
the other, leave the same picture as in one, which collides if one of the parts does. Only whether a
single sprite collides may depend on the order. -/
theorem sprites_commute_and_cancel :
    (∀ (s : Screen) (sprites other : List Sprite), sprites.Perm other →
      s.drawAll sprites = s.drawAll other ∧ (s.drawAll sprites).drawAll other = s) ∧
    (∀ (s : Screen) (x y : Nat) (upper lower : List UInt8),
      let first := s.draw { x := x, y := y, rows := upper }
      let second := first.screen.draw { x := x, y := y + upper.length, rows := lower }
      let whole := s.draw { x := x, y := y, rows := upper ++ lower }
      whole.screen = second.screen ∧ whole.collided = (first.collided || second.collided)) ∧
    ∃ (s : Screen) (sprite other : Sprite),
      (s.draw sprite).collided ≠ ((s.draw other).screen.draw sprite).collided := by
  refine ⟨fun s sprites other h => ⟨s.drawAll_perm h, ?_⟩, fun s x y upper lower => ?_,
    blank, _, _, collided_depends_on_order⟩
  · rw [← drawAll_perm _ h, drawAll_drawAll]
  · intro first second whole
    have hwhole : whole =
        { screen := second.screen, collided := first.collided || second.collided } :=
      s.draw_append x y upper lower
    exact ⟨by rw [hwhole], by rw [hwhole]⟩

/-- Three sprites on a lit pixel at the corner, of which two overlap, one is clipped and one is off
the screen. -/
theorem three_sprites_at_the_corner :
    let s := blank.set 63 31 true
    let box : Sprite := { x := 60, y := 29, rows := [0xF0, 0x90, 0xF0] }
    let bar : Sprite := { x := 62, y := 31, rows := [0xFF, 0xFF] }
    let away : Sprite := { x := 64, y := 0, rows := [0xFF] }
    [box, bar, away].Perm [away, box, bar] ∧
      s.drawAll [box, bar, away] = s.drawAll [away, box, bar] ∧
      (s.drawAll [box, bar, away]).drawAll [away, box, bar] = s ∧
      (s.drawAll [box, bar, away]).get 63 31 = true ∧
      (s.drawAll [box, bar, away]).get 61 29 = true := by
  intro s box bar away
  have hperm : [box, bar, away].Perm [away, box, bar] := by decide
  obtain ⟨hsame, hback⟩ := sprites_commute_and_cancel.1 s _ _ hperm
  refine ⟨hperm, hsame, hback, ?_, ?_⟩
  all_goals
    simp only [drawAll, List.foldl_cons, List.foldl_nil, get_draw]
    decide +kernel

end Chip8.Screen
