/-!
# The built-in font

A glyph for each hexadecimal digit, four pixels wide and five tall, one byte a row with the pixels
in its upper half. The glyph of 0 reads:

```text
F0  ****
90  *  *
90  *  *
90  *  *
F0  ****
```
-/

namespace Chip8.Font

/-- Where the font starts in memory. -/
def start : UInt16 := 0x000

/-- How many bytes a glyph takes. -/
def glyphSize : UInt16 := 5

/-- The sixteen glyphs, one after the other. -/
def glyphs : List UInt8 := [
  0xF0, 0x90, 0x90, 0x90, 0xF0, -- 0
  0x20, 0x60, 0x20, 0x20, 0x70, -- 1
  0xF0, 0x10, 0xF0, 0x80, 0xF0, -- 2
  0xF0, 0x10, 0xF0, 0x10, 0xF0, -- 3
  0x90, 0x90, 0xF0, 0x10, 0x10, -- 4
  0xF0, 0x80, 0xF0, 0x10, 0xF0, -- 5
  0xF0, 0x80, 0xF0, 0x90, 0xF0, -- 6
  0xF0, 0x10, 0x20, 0x40, 0x40, -- 7
  0xF0, 0x90, 0xF0, 0x90, 0xF0, -- 8
  0xF0, 0x90, 0xF0, 0x10, 0xF0, -- 9
  0xF0, 0x90, 0xF0, 0x90, 0x90, -- A
  0xE0, 0x90, 0xE0, 0x90, 0xE0, -- B
  0xF0, 0x80, 0x80, 0x80, 0xF0, -- C
  0xE0, 0x90, 0x90, 0x90, 0xE0, -- D
  0xF0, 0x80, 0xF0, 0x80, 0xF0, -- E
  0xF0, 0x80, 0xF0, 0x80, 0x80  -- F
]

/-- Where the glyph for the value of a register starts. A value above 15 names no glyph, and its
address is past the font. -/
def glyphAddress (b : UInt8) : UInt16 :=
  start + b.toUInt16 * glyphSize

end Chip8.Font
