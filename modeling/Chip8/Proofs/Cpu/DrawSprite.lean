import Chip8.Proofs.Cpu.Check
import Chip8.Proofs.Screen.Drawing

/-!
# Drawing sprites from memory

The instruction that draws takes the place of a sprite from two registers and its rows from memory
at the index register (`spriteAt`). All of this is read before anything is stored, so that the flag
register may give the place as well (`execute_drawSprite`). What happens on the screen is then what
drawing the sprite comes to. `sprites_drawn_exactly` says it of a drawing and of the instruction,
for which the bits are those of the bytes in memory.
-/

namespace Chip8.Cpu

/-- The sprite of so many rows in memory at the index register, where two registers say. -/
def spriteAt (c : Cpu) (x y : Register) (height : Fin 16) : Sprite where
  x := (c.get x).toNat
  y := (c.get y).toNat
  rows := (List.range height.val).map fun k => c.memory.byteAt (c.index.toNat + k)

section Instruction

variable {c : Cpu} {height : Fin 16}

/-- A sprite that lies in memory is drawn, and the flag tells whether it collided. -/
theorem execute_drawSprite (h : c.index.toNat + height.val ≤ 4096) (x y : Register) :
    c.execute (.drawSprite x y height) =
      success ({ c with
        screen := (c.screen.draw (c.spriteAt x y height)).screen
        frameWaiting := true }.putFlag (c.screen.draw (c.spriteAt x y height)).collided) := by
  have hsprite : c.sprite x y height = .ok (c.spriteAt x y height) := by
    have hin : c.index.toNat + height.val ≤ Memory.size := h
    rw [sprite, Memory.read, Memory.checkAccess, if_pos hin]
    rfl
  rw [execute, drawSprite, hsprite]

/-- A sprite that does not lie in memory is not drawn. -/
theorem execute_drawSprite_of_lt (h : 4096 < c.index.toNat + height.val) (x y : Register) :
    c.execute (.drawSprite x y height) =
      failure c (.outsideMemory (max c.index.toNat 4096)) := by
  have hout : ¬c.index.toNat + height.val ≤ Memory.size := Nat.not_le_of_lt h
  apply execute_of_refused
  rw [check, Memory.checkAccess, if_neg hout]
  rfl

/-- The sprite in memory covers a pixel if the bit over it of the byte for its row is set. -/
theorem covers_spriteAt (c : Cpu) (x y : Register) (height : Fin 16) (px py : Nat) :
    (c.spriteAt x y height).covers px py =
      if (c.get x).toNat ≤ px ∧ px < (c.get x).toNat + 8 ∧
          (c.get y).toNat ≤ py ∧ py < (c.get y).toNat + height.val then
        (c.memory.byteAt (c.index.toNat + (py - (c.get y).toNat))).toNat.testBit
          (7 - (px - (c.get x).toNat))
      else false := by
  simp only [Sprite.covers, spriteAt, List.length_map, List.length_range]
  split
  · rename_i hin
    have hrow : py - (c.get y).toNat < height.val := by omega
    rw [List.getElem?_map, List.getElem?_range hrow]
    rfl
  · rfl

end Instruction

/-- Drawing a sprite turns over the pixels of the screen that it covers, and no others: what is
beyond the right or the lower edge is not drawn, and nothing wraps around. It collides if it turns a
pixel off. The lit pixels after it are those before it and the set bits of the sprite on the screen,
less twice the pixels turned off. The instruction does this with the bytes in memory and stores the
collision as the flag, whatever registers give the place, if all of the sprite lies in memory.
Otherwise it fails at the first address that does not exist and changes nothing. -/
theorem sprites_drawn_exactly :
    (∀ (s : Screen) (sprite : Sprite),
      let drawing := s.draw sprite
      (∀ x y, Screen.Shows x y →
        drawing.screen.get x y = (s.get x y ^^ sprite.covers x y)) ∧
      drawing.collided = decide (s.turnedOff drawing.screen ≠ []) ∧
      drawing.screen.litCount + 2 * (s.turnedOff drawing.screen).length =
        s.litCount + sprite.bitsShown) ∧
    (∀ (c : Cpu) (x y : Register) (height : Fin 16), c.index.toNat + height.val ≤ 4096 →
      let done := c.execute (.drawSprite x y height)
      let after := done.state
      let left := (c.get x).toNat
      let top := (c.get y).toNat
      done.answer = .ok () ∧
      (∀ px py, Screen.Shows px py → after.screen.get px py = (c.screen.get px py ^^
        if left ≤ px ∧ px < left + 8 ∧ top ≤ py ∧ py < top + height.val then
          (c.memory.byteAt (c.index.toNat + (py - top))).toNat.testBit (7 - (px - left))
        else false)) ∧
      after.get .flag = (if c.screen.turnedOff after.screen ≠ [] then 1 else 0) ∧
      after.screen.litCount + 2 * (c.screen.turnedOff after.screen).length =
        c.screen.litCount + (c.spriteAt x y height).bitsShown) ∧
    ∀ (c : Cpu) (x y : Register) (height : Fin 16), 4096 < c.index.toNat + height.val →
      c.execute (.drawSprite x y height) =
        failure c (.outsideMemory (max c.index.toNat 4096)) := by
  refine ⟨fun s sprite => ⟨fun x y => s.get_draw_of_shows sprite, s.collided_draw sprite,
    s.litCount_draw sprite⟩, fun c x y height hin => ?_,
    fun c x y height hout => execute_drawSprite_of_lt hout x y⟩
  intro done after left top
  have hdone : done = success _ := execute_drawSprite hin x y
  have hafter : after = _ := congrArg Outcome.state hdone
  have hscreen : after.screen = (c.screen.draw (c.spriteAt x y height)).screen := by
    rw [hafter]
    rfl
  have hflag : after.get .flag =
      if (c.screen.draw (c.spriteAt x y height)).collided then 1 else 0 := by
    rw [hafter]
    exact (get_put ..).trans (if_pos rfl)
  refine ⟨by rw [hdone]; rfl, fun px py hshows => ?_, ?_, ?_⟩
  · rw [hscreen, Screen.get_draw_of_shows _ _ hshows, covers_spriteAt]
  · rw [hflag, hscreen, Screen.collided_draw]
    simp only [decide_eq_true_eq]
  · rw [hscreen]
    exact c.screen.litCount_draw _

/-- The glyph of 0 at the lower right corner, in the column that the flag register holds. Two pixels
of its first two rows are on the screen each, of which three are under set bits and one was lit.
With the last of its rows beyond memory, the same instruction fails. -/
theorem glyph_clipped_at_corner :
    let c : Cpu := { ((initial { key := Vector.replicate 8 0 }).put .flag 62).put 0 30 with
      screen := Screen.blank.set 62 30 true }
    let after := (c.execute (.drawSprite .flag 0 5)).state
    let outside : Cpu := { c with index := 0xFFC }
    (c.index.toNat + (5 : Fin 16).val ≤ 4096 ∧ after.screen.get 62 30 = false ∧
      after.screen.get 63 30 = true ∧ after.screen.get 63 31 = false ∧ after.get .flag = 1 ∧
      after.screen.litCount + 2 * (c.screen.turnedOff after.screen).length = 1 + 3) ∧
    4096 < outside.index.toNat + (5 : Fin 16).val ∧
      outside.execute (.drawSprite .flag 0 5) = failure outside (.outsideMemory 4096) := by
  intro c after outside
  obtain ⟨-, hinside, houtside⟩ := sprites_drawn_exactly
  have hin : c.index.toNat + (5 : Fin 16).val ≤ 4096 := by decide
  have hout : 4096 < outside.index.toNat + (5 : Fin 16).val := by decide
  obtain ⟨-, hpixel, hflag, hcount⟩ := hinside c .flag 0 5 hin
  have hlit : c.screen.get 62 30 = true := by decide +kernel
  have hbefore : c.screen.litCount = 1 := by decide +kernel
  have hbits : (c.spriteAt .flag 0 5).bitsShown = 3 := by decide +kernel
  have hoff : after.screen.get 62 30 = false :=
    (hpixel 62 30 (by decide)).trans (by decide +kernel)
  have hright : after.screen.get 63 30 = true :=
    (hpixel 63 30 (by decide)).trans (by decide +kernel)
  have hlower : after.screen.get 63 31 = false :=
    (hpixel 63 31 (by decide)).trans (by decide +kernel)
  rw [hbefore, hbits] at hcount
  -- The list of all pixels turned off is not evaluated, since one of them is enough for the flag.
  have hturned : c.screen.turnedOff after.screen ≠ [] :=
    List.ne_nil_of_mem (Screen.mem_turnedOff.mpr ⟨hlit, hoff⟩)
  exact ⟨⟨hin, hoff, hright, hlower, hflag.trans (if_pos hturned), hcount⟩, hout,
    houtside outside .flag 0 5 hout⟩

end Chip8.Cpu
