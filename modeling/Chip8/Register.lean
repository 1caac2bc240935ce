import Chip8.Sixteen
import Chip8.Text.Numeral

/-!
# Registers

The sixteen 8-bit registers are named `V0` to `VF` by one hexadecimal digit. `VF` is the flag
register: it takes the carry, borrow and collision flags.
-/

namespace Chip8

/-- The name of one of the sixteen 8-bit registers. -/
abbrev Register := Fin 16

namespace Register

/-- The register that a jump with offset reads. -/
def zero : Register := 0

/-- The register that receives flags. -/
def flag : Register := 15

/-- The register that the low four bits of a byte name. -/
def ofByte (b : UInt8) : Register :=
  ⟨b.toNat % 16, Nat.mod_lt _ (by decide)⟩

/-- A register's name: the letter V and one hexadecimal digit. -/
def text (r : Register) : String :=
  "V" ++ Text.hex 1 r.val

end Register

end Chip8
