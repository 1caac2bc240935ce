import Chip8.Keypad.Basic

/-!
# The keyboard

The keypad is played on the left four columns of a keyboard:

```text
keypad      keyboard
1 2 3 C     1 2 3 4
4 5 6 D     Q W E R
7 8 9 E     A S D F
A 0 B F     Z X C V
```
-/

namespace Chip8

namespace Keyboard

/-- The bindings row by row: the label of a key of the keyboard, and the key of the keypad. -/
def bindings : List (List (Char × Key)) := [
  [('1', 0x1), ('2', 0x2), ('3', 0x3), ('4', 0xC)],
  [('Q', 0x4), ('W', 0x5), ('E', 0x6), ('R', 0xD)],
  [('A', 0x7), ('S', 0x8), ('D', 0x9), ('F', 0xE)],
  [('Z', 0xA), ('X', 0x0), ('C', 0xB), ('V', 0xF)]]

/-- The key of the keypad that a key of the keyboard plays, if any. -/
def key? (label : Char) : Option Key :=
  bindings.flatten.lookup label

/-- The text of a binding: the key of the keypad and the label. -/
def bindingText (binding : Char × Key) : String :=
  Text.hex 1 binding.2.val ++ "=" ++ String.singleton binding.1

/-- The bindings laid out as the keypad, one row a line. -/
def layout : String :=
  "\n".intercalate (bindings.map fun row => "  ".intercalate (row.map bindingText))

end Keyboard

end Chip8
