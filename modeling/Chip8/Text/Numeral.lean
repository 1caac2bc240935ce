/-!
# Numerals in messages

Words, addresses and keys are written in upper-case hexadecimal, padded with zeros to a least
width; sizes are written in decimal. Padding never shortens a numeral, so a number that needs more
digits than the width is written in full.
-/

namespace Chip8.Text

/-- The upper-case hexadecimal digits of a number, most significant first. -/
def hexDigits (n : Nat) : List Char :=
  (Nat.toDigits 16 n).map Char.toUpper

/-- The hexadecimal digits of a number, padded with zeros on the left to at least `width`. -/
def paddedHexDigits (width n : Nat) : List Char :=
  (hexDigits n).leftpad width '0'

/-- A number in upper-case hexadecimal with at least `width` digits. -/
def hex (width n : Nat) : String :=
  String.ofList (paddedHexDigits width n)

/-- A number in hexadecimal behind the mark `0x`, with at least `width` digits. -/
def markedHex (width n : Nat) : String :=
  "0x" ++ hex width n

/-- A number in decimal. -/
def decimal (n : Nat) : String :=
  n.repr

/-- A numeral is at least as long as the width that was asked for. -/
theorem le_length_paddedHexDigits (width n : Nat) : width ≤ (paddedHexDigits width n).length := by
  simp only [paddedHexDigits, List.leftpad, List.length_append, List.length_replicate]
  omega

end Chip8.Text
